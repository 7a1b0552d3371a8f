import EventSourcing.Proofs.DerivedTraits
import EventSourcing.Proofs.LeadingFields
import EventSourcing.Proofs.TagGrammar

/-!
Expanding a declaration. It succeeds just if the argument can be read and the item is of a kind that
suits the role. All of the item is kept then but its attributes, which are merged, and the base of an
aggregate, which is moved to the front or added there. Expanding what was emitted once more, with the
same argument, gives the same.
-/

namespace EventSourcing.Declaration

namespace Expansion

variable {role : Role} {argument : List Token} {item shaped : Item} {x : Expansion}

def Suits (role : Role) (item : Item) : Prop :=
  match role with
  | .aggregate => item.generics = [] ∧ ∃ fs, item.body = .struct (.named fs)
  | .event | .command => (∃ fields, item.body = .struct fields) ∨ ∃ variants, item.body = .enum variants

def Shapes (role : Role) (before after : Body) : Prop :=
  match role with
  | .aggregate => ∃ fs, before = .struct (.named fs) ∧ after = .struct (.named (baseField.ensure fs))
  | .event | .command => after = before

theorem exists_shapes (h : Suits role item) : ∃ body, Shapes role item.body body := by
  cases role with
  | aggregate =>
    obtain ⟨-, fs, hbody⟩ := h
    exact ⟨_, fs, hbody, rfl⟩
  | event | command => exact ⟨item.body, rfl⟩

theorem reshape_eq_ok : reshape role item = .ok shaped ↔
    Suits role item ∧ ∃ body, Shapes role item.body body ∧ shaped = { item with body := body } := by
  obtain ⟨name, visibility, attributes, generics, conditions, body⟩ := item
  constructor
  · intro h
    cases role with
    | aggregate =>
      cases body with
      | struct fields =>
        cases generics with
        | cons g generics => nomatch h
        | nil =>
          cases fields with
          | named fs => exact ⟨⟨rfl, fs, rfl⟩, _, ⟨fs, rfl, rfl⟩, (Except.ok.inj h).symm⟩
          | tuple fs => nomatch h
          | unit => nomatch h
      | enum variants => nomatch h
      | other kind => nomatch h
    | event | command =>
      cases body with
      | struct fields => exact ⟨Or.inl ⟨fields, rfl⟩, _, rfl, (Except.ok.inj h).symm⟩
      | enum variants => exact ⟨Or.inr ⟨variants, rfl⟩, _, rfl, (Except.ok.inj h).symm⟩
      | other kind => nomatch h
  · rintro ⟨hsuits, body', hshapes, rfl⟩
    cases role with
    | aggregate =>
      obtain ⟨fs, rfl, rfl⟩ := hshapes
      obtain rfl : generics = [] := hsuits.1
      rfl
    | event | command =>
      obtain rfl : body' = body := hshapes
      rcases hsuits with ⟨fields, rfl⟩ | ⟨variants, rfl⟩ <;> rfl

theorem expand_eq_ok : expand role argument item = .ok x ↔
    ∃ tag shaped, TagAttribute.read argument = .ok tag ∧ reshape role item = .ok shaped ∧
      x = ⟨withDerived role shaped, tag.getD item.name, implemented role item⟩ := by
  unfold expand
  rcases TagAttribute.read argument with e | tag
  · simp
  · rcases reshape role item with e | shaped
    · simp
    · simp [eq_comm]

theorem reshape_withDerived (h : reshape role item = .ok shaped) :
    reshape role (withDerived role shaped) = .ok (withDerived role shaped) := by
  obtain ⟨hsuits, body, hshapes, rfl⟩ := reshape_eq_ok.1 h
  refine reshape_eq_ok.2 ⟨?_, body, ?_, rfl⟩
  · cases role with
    | aggregate =>
      obtain ⟨fs, -, rfl⟩ := hshapes
      exact ⟨hsuits.1, _, rfl⟩
    | event | command =>
      obtain rfl : body = item.body := hshapes
      exact hsuits
  · cases role with
    | aggregate =>
      obtain ⟨fs, -, rfl⟩ := hshapes
      have hone : (baseField.map (·.1)).Nodup := List.nodup_singleton "base"
      exact ⟨_, rfl, by rw [RequiredFields.ensure_ensure hone fs]⟩
    | event | command => exact rfl

theorem withDerived_withDerived (role : Role) (item : Item) :
    withDerived role (withDerived role item) = withDerived role item := by
  show { item with attributes := Derive.merge (Derive.merge item.attributes (derived role)) (derived role) } = _
  rw [Derive.merge_merge]
  rfl

/-- An expansion is expanded to itself. -/
theorem expand_expand (h : expand role argument item = .ok x) :
    expand role argument x.item = .ok x := by
  obtain ⟨tag, shaped, htag, hshaped, rfl⟩ := expand_eq_ok.1 h
  refine expand_eq_ok.2 ⟨tag, _, htag, reshape_withDerived hshaped, ?_⟩
  obtain ⟨-, body, -, rfl⟩ := reshape_eq_ok.1 hshaped
  rw [withDerived_withDerived]
  rfl

structure Emits (role : Role) (item emitted : Item) : Prop where
  kind : emitted.kind = item.kind
  name : emitted.name = item.name
  visibility : emitted.visibility = item.visibility
  generics : emitted.generics = item.generics
  conditions : emitted.conditions = item.conditions
  attributes : emitted.attributes = Derive.merge item.attributes (derived role)
  derivedFirst : ∃ paths, emitted.attributes =
    .derive paths :: item.attributes.filter fun a => !a.isDerive
  body : role ≠ .aggregate → emitted.body = item.body
  /-- The base comes first, the other fields keep their order. -/
  fields : role = .aggregate → ∃ fs, item.body = .struct (.named fs) ∧
    ((∃ base ∈ fs, base.name = some "base" ∧
        emitted.body = .struct (.named (base :: fs.erase base))) ∨
      (∀ f ∈ fs, f.name ≠ some "base") ∧ emitted.body = .struct (.named
        (⟨some "base", pathTokens ["cqrs_domain", "aggregate", "AggregateBase"], [], []⟩ :: fs)))

theorem emits_of_expand (hnames : ∀ fs, item.body = .struct (.named fs) → (fs.map (·.name)).Nodup)
    (h : expand role argument item = .ok x) : Emits role item x.item := by
  obtain ⟨tag, shaped, -, hshaped, rfl⟩ := expand_eq_ok.1 h
  obtain ⟨hsuits, body, hshapes, rfl⟩ := reshape_eq_ok.1 hshaped
  refine {
    kind := ?_
    name := rfl
    visibility := rfl
    generics := rfl
    conditions := rfl
    attributes := rfl
    derivedFirst := ⟨_, rfl⟩
    body := fun hrole => ?_
    fields := fun hrole => ?_ }
  · cases role with
    | aggregate =>
      obtain ⟨fs, hbody, rfl⟩ := hshapes
      simp only [Item.kind, withDerived, hbody]
    | event | command =>
      obtain rfl : body = item.body := hshapes
      rfl
  · cases role with
    | aggregate => exact absurd rfl hrole
    | event | command => exact hshapes
  · subst hrole
    obtain ⟨fs, hbody, rfl⟩ := hshapes
    refine ⟨fs, hbody, ?_⟩
    by_cases hbase : ∃ base ∈ fs, base.name = some "base"
    · obtain ⟨base, hmem, hname⟩ := hbase
      exact Or.inl ⟨base, hmem, hname, congrArg (Body.struct ∘ Fields.named)
        (RequiredFields.ensure_declared hmem hname (hnames fs hbody))⟩
    · have hmissing : ∀ f ∈ fs, f.name ≠ some "base" := fun f hf hname => hbase ⟨f, hf, hname⟩
      exact Or.inr ⟨hmissing, congrArg (Body.struct ∘ Fields.named)
        (RequiredFields.ensure_missing hmissing)⟩

/-- Expanding succeeds just if the argument can be read and the item suits the role, and a mistake in
the argument is told whatever the item. What is emitted is the item with its attributes merged and the
base of an aggregate in front. The tag is the text of the argument, or the name of the item if the
argument is empty. Expanding what is emitted, with the same argument, gives the same once more. -/
theorem expand_keeps (role : Role) (argument : List Token) (item : Item)
    (hnames : ∀ fs, item.body = .struct (.named fs) → (fs.map (·.name)).Nodup) :
    ((∃ x, expand role argument item = .ok x) ↔
      (∃ tag, TagAttribute.read argument = .ok tag) ∧ Suits role item) ∧
    (∀ e, TagAttribute.read argument = .error e →
      expand role argument item = .error (.attribute e)) ∧
    ∀ x, expand role argument item = .ok x →
      Emits role item x.item ∧
      ((argument = [] ∧ x.tag = item.name) ∨ ∃ joined source more,
        argument = .word "type" :: .symbol '=' joined :: .text x.tag source :: more ∧
        (more = [] ∨ ∃ joined', more = [.symbol ',' joined'])) ∧
      expand role argument x.item = .ok x := by
  refine ⟨⟨?_, ?_⟩, fun e he => by rw [expand, he], fun x h => ⟨emits_of_expand hnames h, ?_,
    expand_expand h⟩⟩
  · rintro ⟨x, h⟩
    obtain ⟨tag, shaped, htag, hshaped, -⟩ := expand_eq_ok.1 h
    exact ⟨⟨tag, htag⟩, (reshape_eq_ok.1 hshaped).1⟩
  · rintro ⟨⟨tag, htag⟩, hsuits⟩
    obtain ⟨body, hshapes⟩ := exists_shapes hsuits
    exact ⟨_, expand_eq_ok.2 ⟨tag, _, htag, reshape_eq_ok.2 ⟨hsuits, body, hshapes, rfl⟩, rfl⟩⟩
  · obtain ⟨tag, shaped, htag, -, rfl⟩ := expand_eq_ok.1 h
    rcases TagAttribute.read_eq_ok htag with
      ⟨rfl, rfl⟩ | ⟨joined, value, source, more, rfl, hmore, rfl⟩
    · exact Or.inl ⟨rfl, rfl⟩
    · exact Or.inr ⟨joined, source, more, rfl, hmore⟩

/-- A struct with its base behind another field and its derived traits behind another attribute. -/
def stock : Item where
  name := "Stock"
  visibility := [.word "pub"]
  attributes := [.other [.word "non_exhaustive"], .derive [.bare "Clone", .bare "Debug"]]
  generics := []
  conditions := []
  body := .struct (.named [⟨some "count", [.word "u32"], [], []⟩,
    ⟨some "base", [.word "AggregateBase"], [.word "pub"], []⟩])

def stockTag : List Token := [.word "type", .symbol '=' false, .text "stock" "\"stock\""]

theorem expand_keeps_stock :
    (∀ fs, stock.body = .struct (.named fs) → (fs.map (·.name)).Nodup) ∧
      ∃ x, expand .aggregate stockTag stock = .ok x ∧ x.tag = "stock" ∧
        x.item.body = .struct (.named [⟨some "base", [.word "AggregateBase"], [.word "pub"], []⟩,
          ⟨some "count", [.word "u32"], [], []⟩]) ∧
        expand .aggregate stockTag x.item = .ok x := by
  have hnames : ∀ fs, stock.body = .struct (.named fs) → (fs.map (·.name)).Nodup := by
    rintro fs hfs
    obtain rfl := Fields.named.inj (Body.struct.inj hfs)
    decide
  obtain ⟨hiff, -, hall⟩ := expand_keeps .aggregate stockTag stock hnames
  obtain ⟨x, hx⟩ := hiff.2 ⟨⟨some "stock", rfl⟩, rfl, _, rfl⟩
  obtain ⟨hemits, htag, hagain⟩ := hall x hx
  refine ⟨hnames, x, hx, ?_, ?_, hagain⟩
  · rcases htag with ⟨hnone, -⟩ | ⟨joined, source, more, hargument, -⟩
    · nomatch hnone
    · simp only [stockTag, List.cons.injEq, Token.text.injEq] at hargument
      exact hargument.2.2.1.1.symm
  · obtain ⟨fs, hfs, hfields⟩ := hemits.fields rfl
    obtain rfl := Fields.named.inj (Body.struct.inj hfs)
    rcases hfields with ⟨base, hmem, hname, hbody⟩ | ⟨hmissing, -⟩
    · simp only [List.mem_cons, List.not_mem_nil, or_false] at hmem
      rcases hmem with rfl | rfl
      · nomatch hname
      · exact hbody.trans (by decide)
    · exact absurd rfl (hmissing ⟨some "base", [.word "AggregateBase"], [.word "pub"], []⟩ (by simp))

end Expansion

end EventSourcing.Declaration
