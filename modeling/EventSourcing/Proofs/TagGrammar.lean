import EventSourcing.Declaration.TagAttribute

/-!
The arguments that a declaration attribute takes. Its pairs are read just if they have the form of a
list; otherwise the first mistake in their form is told, whatever the tags in front of it. So there is
a tag just if there is one pair and its text is not empty, and no tag just if there is nothing at all.
-/

namespace EventSourcing.Declaration

namespace TagAttribute

/-- A pair as it is written: its equals sign, which may be joined to what follows, and its text. -/
structure Pair where
  joined : Bool
  tag : String
  source : String

def Pair.tokens (p : Pair) : List Token :=
  [.word "type", .symbol '=' p.joined, .text p.tag p.source]

/-- Pairs with commas between them and perhaps one at the end, and the texts of the pairs. -/
inductive Listed : List Token → List String → Prop
  | empty : Listed [] []
  | last (p : Pair) : Listed p.tokens [p.tag]
  | comma {ts : List Token} {tags : List String} (p : Pair) (joined : Bool) (rest : Listed ts tags) :
      Listed (p.tokens ++ .symbol ',' joined :: ts) (p.tag :: tags)

/-- The first mistake in the form of a list, behind any number of pairs with their commas. -/
inductive Mistaken : List Token → TagError → Prop
  | key {t : Token} {ts : List Token} (h : t ≠ .word "type") : Mistaken (t :: ts) .unknownKey
  | equals {ts : List Token} (h : ∀ joined more, ts ≠ .symbol '=' joined :: more) :
      Mistaken (.word "type" :: ts) .expectedEquals
  | ended (joined : Bool) : Mistaken [.word "type", .symbol '=' joined] .endOfInput
  | text {joined : Bool} {t : Token} {ts : List Token} (h : ∀ tag source, t ≠ .text tag source) :
      Mistaken (.word "type" :: .symbol '=' joined :: t :: ts) .expectedText
  | separator {t : Token} {ts : List Token} (p : Pair) (h : ∀ joined, t ≠ .symbol ',' joined) :
      Mistaken (p.tokens ++ t :: ts) .expectedComma
  | later {ts : List Token} {e : TagError} (p : Pair) (joined : Bool) (rest : Mistaken ts e) :
      Mistaken (p.tokens ++ .symbol ',' joined :: ts) e

variable {ts : List Token} {tags : List String} {e : TagError}

theorem readPairs_comma (p : Pair) (joined : Bool) (ts : List Token) :
    readPairs (p.tokens ++ .symbol ',' joined :: ts) = (readPairs ts).map (p.tag :: ·) := by
  simp only [Pair.tokens, List.cons_append, List.nil_append, readPairs]

theorem readPairs_of_listed (h : Listed ts tags) : readPairs ts = .ok tags := by
  induction h with
  | empty => rfl
  | last p => rfl
  | comma p joined rest ih =>
    rw [readPairs_comma, ih]
    rfl

theorem readPairs_of_mistaken (h : Mistaken ts e) : readPairs ts = .error e := by
  induction h with
  | key h => rw [readPairs]; exact h
  | equals h => rw [readPairs]; exact h
  | ended joined => rfl
  | text h => rw [readPairs]; exact h
  | separator p h =>
    simp only [Pair.tokens, List.cons_append, List.nil_append]
    rw [readPairs]; exact h
  | later p joined rest ih =>
    rw [readPairs_comma, ih]
    rfl

/-- There is no third way; the cases are those of the reading. -/
theorem listed_or_mistaken (ts : List Token) :
    (∃ tags, Listed ts tags) ∨ ∃ e, Mistaken ts e := by
  fun_induction readPairs ts with
  | case1 => exact Or.inl ⟨_, .empty⟩
  | case2 joined tag source => exact Or.inl ⟨_, .last ⟨joined, tag, source⟩⟩
  | case3 joined tag source joined' more ih =>
    rcases ih with ⟨tags, hrest⟩ | ⟨e, hrest⟩
    · exact Or.inl ⟨_, .comma ⟨joined, tag, source⟩ joined' hrest⟩
    · exact Or.inr ⟨e, .later ⟨joined, tag, source⟩ joined' hrest⟩
  | case4 joined tag source t more hcomma =>
    exact Or.inr ⟨_, .separator ⟨joined, tag, source⟩ hcomma⟩
  | case5 joined => exact Or.inr ⟨_, .ended joined⟩
  | case6 joined t more htext => exact Or.inr ⟨_, .text htext⟩
  | case7 more hequals => exact Or.inr ⟨_, .equals hequals⟩
  | case8 t more hkey => exact Or.inr ⟨_, .key hkey⟩

theorem readPairs_eq_ok_iff : readPairs ts = .ok tags ↔ Listed ts tags := by
  refine ⟨fun h => ?_, readPairs_of_listed⟩
  rcases listed_or_mistaken ts with ⟨tags', hlisted⟩ | ⟨e, hmistaken⟩
  · rw [readPairs_of_listed hlisted] at h
    rwa [← Except.ok.inj h]
  · rw [readPairs_of_mistaken hmistaken] at h
    nomatch h

theorem readPairs_eq_error_iff : readPairs ts = .error e ↔ Mistaken ts e := by
  refine ⟨fun h => ?_, readPairs_of_mistaken⟩
  rcases listed_or_mistaken ts with ⟨tags, hlisted⟩ | ⟨e', hmistaken⟩
  · rw [readPairs_of_listed hlisted] at h
    nomatch h
  · rw [readPairs_of_mistaken hmistaken] at h
    rwa [← Except.error.inj h]

theorem exists_mistaken_iff : (∃ e, Mistaken ts e) ↔ ¬ ∃ tags, Listed ts tags := by
  simp only [← readPairs_eq_ok_iff, ← readPairs_eq_error_iff]
  rcases readPairs ts with e | tags <;> simp

/-- Mistakes in the form are not those that tags can have. -/
theorem Mistaken.not_of_tag (h : Mistaken ts e) : e ≠ .emptyTag ∧ e ≠ .duplicateKey := by
  induction h with
  | later p joined rest ih => exact ih
  | _ => exact ⟨nofun, nofun⟩

theorem listed_nil_iff : Listed ts [] ↔ ts = [] := by
  constructor
  · rintro ⟨⟩
    rfl
  · rintro rfl
    exact .empty

theorem listed_singleton_iff {tag : String} : Listed ts [tag] ↔
    ∃ (p : Pair) (more : List Token), ts = p.tokens ++ more ∧ p.tag = tag ∧
      (more = [] ∨ ∃ joined, more = [.symbol ',' joined]) := by
  constructor
  · intro h
    cases h with
    | last p => exact ⟨p, [], (List.append_nil _).symm, rfl, Or.inl rfl⟩
    | comma p joined rest =>
      obtain rfl := listed_nil_iff.1 rest
      exact ⟨p, _, rfl, rfl, Or.inr ⟨joined, rfl⟩⟩
  · rintro ⟨p, more, rfl, rfl, rfl | ⟨joined, rfl⟩⟩
    · rw [List.append_nil]
      exact .last p
    · exact .comma p joined .empty

theorem tagOf_cons (first : String) (others : List String) : tagOf (first :: others) =
    if first = "" then .error .emptyTag
    else if others = [] then .ok (some first) else .error .duplicateKey := by
  cases others <;> rfl

theorem tagOf_eq_ok_iff {tag : Option String} : tagOf tags = .ok tag ↔
    (tags = [] ∧ tag = none) ∨ ∃ text, tags = [text] ∧ text ≠ "" ∧ tag = some text := by
  cases tags with
  | nil => simp [tagOf, eq_comm]
  | cons first others =>
    rw [tagOf_cons]
    by_cases hempty : first = ""
    · simp [hempty]
    · by_cases hothers : others = []
      · simp [hempty, hothers, eq_comm]
      · simp [hempty, hothers]

theorem tagOf_cons_eq_error_iff {first : String} {others : List String} :
    tagOf (first :: others) = .error e ↔
      first = "" ∧ e = .emptyTag ∨ first ≠ "" ∧ others ≠ [] ∧ e = .duplicateKey := by
  rw [tagOf_cons]
  by_cases hempty : first = ""
  · simp [hempty, eq_comm]
  · by_cases hothers : others = []
    · simp [hempty, hothers]
    · simp [hempty, hothers, eq_comm]

theorem read_eq_ok_iff_tagOf {tag : Option String} :
    read ts = .ok tag ↔ ∃ tags, Listed ts tags ∧ tagOf tags = .ok tag := by
  simp only [← readPairs_eq_ok_iff, read]
  rcases readPairs ts with e | tags <;> simp [bind, Except.bind]

theorem read_eq_error_iff_tagOf :
    read ts = .error e ↔ Mistaken ts e ∨ ∃ tags, Listed ts tags ∧ tagOf tags = .error e := by
  simp only [← readPairs_eq_ok_iff, ← readPairs_eq_error_iff, read]
  rcases readPairs ts with e | tags <;> simp [bind, Except.bind]

theorem read_eq_ok_iff {tag : Option String} : read ts = .ok tag ↔ (ts = [] ∧ tag = none) ∨
    ∃ (p : Pair) (more : List Token), ts = p.tokens ++ more ∧ p.tag ≠ "" ∧
      (more = [] ∨ ∃ joined, more = [.symbol ',' joined]) ∧ tag = some p.tag := by
  rw [read_eq_ok_iff_tagOf]
  constructor
  · rintro ⟨tags, hlisted, htag⟩
    rcases tagOf_eq_ok_iff.1 htag with ⟨rfl, rfl⟩ | ⟨text, rfl, hempty, rfl⟩
    · exact Or.inl ⟨listed_nil_iff.1 hlisted, rfl⟩
    · obtain ⟨p, more, hts, rfl, hmore⟩ := listed_singleton_iff.1 hlisted
      exact Or.inr ⟨p, more, hts, hempty, hmore, rfl⟩
  · rintro (⟨rfl, rfl⟩ | ⟨p, more, hts, hempty, hmore, rfl⟩)
    · exact ⟨[], .empty, rfl⟩
    · exact ⟨[p.tag], listed_singleton_iff.2 ⟨p, more, hts, rfl, hmore⟩,
        tagOf_eq_ok_iff.2 (Or.inr ⟨p.tag, rfl, hempty, rfl⟩)⟩

theorem read_eq_error_iff : read ts = .error e ↔ Mistaken ts e ∨
    ∃ first others, Listed ts (first :: others) ∧
      (first = "" ∧ e = .emptyTag ∨ first ≠ "" ∧ others ≠ [] ∧ e = .duplicateKey) := by
  rw [read_eq_error_iff_tagOf]
  refine or_congr_right ⟨?_, ?_⟩
  · rintro ⟨_ | ⟨first, others⟩, hlisted, htag⟩
    · nomatch htag
    · exact ⟨first, others, hlisted, tagOf_cons_eq_error_iff.1 htag⟩
  · rintro ⟨first, others, hlisted, htag⟩
    exact ⟨_, hlisted, tagOf_cons_eq_error_iff.2 htag⟩

theorem read_eq_ok {tag : Option String} (h : read ts = .ok tag) :
    (ts = [] ∧ tag = none) ∨ ∃ joined value source more,
      ts = .word "type" :: .symbol '=' joined :: .text value source :: more ∧
      (more = [] ∨ ∃ joined', more = [.symbol ',' joined']) ∧ tag = some value := by
  refine (read_eq_ok_iff.1 h).imp_right ?_
  rintro ⟨p, more, rfl, -, hmore, rfl⟩
  exact ⟨p.joined, p.tag, p.source, more, rfl, hmore, rfl⟩

/-- An argument is read just if it is empty, which gives no tag, or one pair whose text is not empty,
perhaps with a comma behind it, which gives that text. Otherwise there is an error. That is the first
mistake in the form of the list, however late it comes; only if the list has its form, an empty text
of the first pair is told, and else that there is a second pair. -/
theorem read_follows_grammar (ts : List Token) :
    (∀ tag, read ts = .ok tag ↔ (ts = [] ∧ tag = none) ∨
      ∃ (p : Pair) (more : List Token), ts = p.tokens ++ more ∧ p.tag ≠ "" ∧
        (more = [] ∨ ∃ joined, more = [.symbol ',' joined]) ∧ tag = some p.tag) ∧
    (∀ e, read ts = .error e ↔ Mistaken ts e ∨ ∃ first others, Listed ts (first :: others) ∧
      (first = "" ∧ e = .emptyTag ∨ first ≠ "" ∧ others ≠ [] ∧ e = .duplicateKey)) ∧
    ((∃ e, Mistaken ts e) ↔ ¬ ∃ tags, Listed ts tags) ∧
    (¬ Mistaken ts .emptyTag ∧ ¬ Mistaken ts .duplicateKey) ∧
    TagError.emptyTag.message = "type tag must not be empty" ∧
    TagError.duplicateKey.message = "duplicate key 'type' in attribute" :=
  ⟨fun _ => read_eq_ok_iff, fun _ => read_eq_error_iff, exists_mistaken_iff,
    ⟨fun h => h.not_of_tag.1 rfl, fun h => h.not_of_tag.2 rfl⟩, rfl, rfl⟩

/-- A third pair without its text is told before the second, and before the empty text of the first. -/
example : read [.word "type", .symbol '=' false, .text "" "\"\"", .symbol ',' false,
    .word "type", .symbol '=' false, .text "a" "\"a\"", .symbol ',' false,
    .word "type", .symbol '=' false] = .error .endOfInput := rfl

end TagAttribute

end EventSourcing.Declaration
