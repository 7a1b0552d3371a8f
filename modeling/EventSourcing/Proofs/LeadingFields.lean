import EventSourcing.Declaration.Expansion
import Mathlib.Data.List.Nodup
import Mathlib.Data.List.Forall2

/-!
Required fields come first, each as it is declared if it is. What is in front then is found there
again, so that the fields are in order once and for all, and no declared field is lost or doubled. If
only one field is required, it is moved to the front, or a new one is put there.
-/

namespace EventSourcing.Declaration

theorem find?_of_unique {α : Type} {l : List α} {p : α → Bool} {a : α} (ha : a ∈ l) (hp : p a)
    (hunique : ∀ b ∈ l, p b → b = a) : l.find? p = some a := by
  cases h : l.find? p with
  | none => exact absurd hp (List.find?_eq_none.1 h a ha)
  | some b => rw [hunique b (List.mem_of_find?_eq_some h) (List.find?_some h)]

namespace RequiredFields

variable {required : RequiredFields} {fields : List Field} {r : String × List Token} {f : Field}
  {name : String} {type : List Token}

theorem isRequired_iff : required.isRequired f ↔ ∃ r ∈ required, f.name = some r.1 := by
  simp [isRequired]

theorem name_fieldFor (fields : List Field) (r : String × List Token) :
    (fieldFor fields r).name = some r.1 := by
  unfold fieldFor
  cases h : fields.find? fun f => f.name = some r.1 with
  | none => rfl
  | some f => simpa using List.find?_some h

theorem fieldFor_of_find? (h : fields.find? (fun f => f.name = some r.1) = some f) :
    fieldFor fields r = f := by
  unfold fieldFor
  rw [h]
  rfl

theorem fieldFor_of_mem (hfields : (fields.map (·.name)).Nodup) (hf : f ∈ fields)
    (hname : f.name = some r.1) : fieldFor fields r = f := by
  have hunique : ∀ g ∈ fields, g.name = some r.1 → g = f := fun g hg hsame =>
    List.inj_on_of_nodup_map hfields hg hf (hsame.trans hname.symm)
  exact fieldFor_of_find? (find?_of_unique hf (by simpa using hname) (by simpa using hunique))

theorem find?_leading (hnodup : (required.map (·.1)).Nodup) (hr : r ∈ required) :
    (required.map (fieldFor fields)).find? (fun f => f.name = some r.1) =
      some (fieldFor fields r) := by
  refine find?_of_unique (List.mem_map_of_mem hr) (by simp [name_fieldFor]) fun f hf hname => ?_
  obtain ⟨r', hr', rfl⟩ := List.mem_map.1 hf
  have hsame : r'.1 = r.1 := by simpa [name_fieldFor] using hname
  rw [List.inj_on_of_nodup_map hnodup hr' hr hsame]

theorem filter_leading :
    (required.map (fieldFor fields)).filter (fun f => !required.isRequired f) = [] := by
  rw [List.filter_eq_nil_iff]
  intro f hf
  obtain ⟨r, hr, rfl⟩ := List.mem_map.1 hf
  have hrequired : required.isRequired (fieldFor fields r) :=
    isRequired_iff.2 ⟨r, hr, name_fieldFor fields r⟩
  simp [hrequired]

theorem ensure_ensure (hnodup : (required.map (·.1)).Nodup) (fields : List Field) :
    required.ensure (required.ensure fields) = required.ensure fields := by
  have hleading : required.map (fieldFor (required.ensure fields)) =
      required.map (fieldFor fields) := by
    refine List.map_congr_left fun r hr => fieldFor_of_find? ?_
    unfold ensure
    rw [List.find?_append, find?_leading hnodup hr]
    rfl
  show required.map (fieldFor (required.ensure fields)) ++ (required.ensure fields).filter _ = _
  rw [hleading]
  unfold ensure
  rw [List.filter_append, filter_leading, List.nil_append, List.filter_filter]
  simp only [Bool.and_self]

section Single

theorem isRequired_single : isRequired [(name, type)] f ↔ f.name = some name := by
  simp [isRequired_iff]

theorem ensure_declared (hf : f ∈ fields) (hname : f.name = some name)
    (hnodup : (fields.map (·.name)).Nodup) : ensure [(name, type)] fields = f :: fields.erase f := by
  have hunique : ∀ g ∈ fields, g.name = some name → g = f := fun g hg hsame =>
    List.inj_on_of_nodup_map hnodup hg hf (hsame.trans hname.symm)
  have hfirst : fieldFor fields (name, type) = f := fieldFor_of_mem hnodup hf hname
  have hothers : fields.filter (fun g => !isRequired [(name, type)] g) = fields.erase f := by
    rw [hnodup.of_map.erase_eq_filter]
    refine List.filter_congr fun g hg => ?_
    have hiff : isRequired [(name, type)] g ↔ g = f :=
      isRequired_single.trans ⟨hunique g hg, fun heq => heq ▸ hname⟩
    rw [Bool.eq_iff_iff, Bool.not_eq_true', bne_iff_ne, ← Bool.not_eq_true, hiff]
  show [fieldFor fields (name, type)] ++ _ = _
  rw [hfirst, hothers]
  rfl

theorem ensure_missing (h : ∀ f ∈ fields, f.name ≠ some name) :
    ensure [(name, type)] fields = ⟨some name, type, [], []⟩ :: fields := by
  have hnew : fields.find? (fun f => f.name = some name) = none := by
    simpa [List.find?_eq_none] using h
  have hothers : fields.filter (fun g => !isRequired [(name, type)] g) = fields := by
    rw [List.filter_eq_self]
    intro g hg
    have hrequired : ¬ isRequired [(name, type)] g := fun h' => h g hg (isRequired_single.1 h')
    simp [hrequired]
  show [fieldFor fields (name, type)] ++ _ = _
  rw [hothers, fieldFor, hnew]
  rfl

end Single

section Reordering

/-- What stands in front for a required field: the declared field of its name as it is, or a new one
of its type if none is declared. -/
inductive Leads (fields : List Field) (r : String × List Token) : Field → Prop
  | declared {f : Field} (hf : f ∈ fields) (hname : f.name = some r.1) : Leads fields r f
  | added (hnone : ∀ f ∈ fields, f.name ≠ some r.1) : Leads fields r ⟨some r.1, r.2, [], []⟩

theorem leads_fieldFor (fields : List Field) (r : String × List Token) :
    Leads fields r (fieldFor fields r) := by
  cases h : fields.find? fun f => f.name = some r.1 with
  | none =>
    have hnew : fieldFor fields r = ⟨some r.1, r.2, [], []⟩ := by
      rw [fieldFor, h]
      rfl
    rw [hnew]
    exact .added (by simpa using h)
  | some f =>
    rw [fieldFor_of_find? h]
    exact .declared (List.mem_of_find?_eq_some h) (by simpa using List.find?_some h)

theorem map_name_leading (required : RequiredFields) (fields : List Field) :
    (required.map (fieldFor fields)).map (·.name) = required.map fun r => some r.1 := by
  rw [List.map_map]
  exact List.map_congr_left fun r _ => name_fieldFor fields r

theorem others_eq (required : RequiredFields) (fields : List Field) :
    fields.filter (fun f => !required.isRequired f) =
      fields.filter fun f => ∀ r ∈ required, f.name ≠ some r.1 :=
  List.filter_congr fun f _ => by
    rw [Bool.eq_iff_iff]
    simp [isRequired]

theorem nodup_names_ensure (hrequired : (required.map (·.1)).Nodup)
    (hfields : (fields.map (·.name)).Nodup) : ((required.ensure fields).map (·.name)).Nodup := by
  have hleading : (required.map fun r => some r.1).Nodup := by
    simpa [Function.comp_def] using hrequired.map fun _ _ => Option.some.inj
  have hothers : ((fields.filter fun f => !required.isRequired f).map (·.name)).Nodup :=
    hfields.sublist (List.filter_sublist.map _)
  rw [ensure, List.map_append, map_name_leading, List.nodup_append]
  refine ⟨hleading, hothers, ?_⟩
  -- an other field has no name that is required
  rintro _ hname _ hother rfl
  obtain ⟨r, hr, rfl⟩ := List.mem_map.1 hname
  obtain ⟨f, hf, hsame⟩ := List.mem_map.1 hother
  have hrequired : required.isRequired f := isRequired_iff.2 ⟨r, hr, hsame⟩
  simpa [hrequired] using (List.mem_filter.1 hf).2

theorem mem_ensure (hfields : (fields.map (·.name)).Nodup) (hf : f ∈ fields) :
    f ∈ required.ensure fields := by
  rw [ensure, List.mem_append]
  by_cases h : required.isRequired f
  · obtain ⟨r, hr, hname⟩ := isRequired_iff.1 h
    exact Or.inl (List.mem_map.2 ⟨r, hr, fieldFor_of_mem hfields hf hname⟩)
  · exact Or.inr (List.mem_filter.2 ⟨hf, by simpa using h⟩)

/-- The required fields come first in their order, as they are declared or else as new ones; the other
declared fields follow in theirs. So each declared field is there once, no name is there twice, and
doing it again changes nothing. -/
theorem ensure_reorders (required : RequiredFields) (fields : List Field)
    (hrequired : (required.map (·.1)).Nodup) (hfields : (fields.map (·.name)).Nodup) :
    (∃ leading, List.Forall₂ (Leads fields) required leading ∧
      required.ensure fields =
        leading ++ fields.filter fun f => ∀ r ∈ required, f.name ≠ some r.1) ∧
    (∀ f ∈ fields, (required.ensure fields).count f = 1) ∧
    ((required.ensure fields).map (·.name)).Nodup ∧
    required.ensure (required.ensure fields) = required.ensure fields := by
  have hnames := nodup_names_ensure hrequired hfields
  refine ⟨⟨required.map (fieldFor fields), ?_, ?_⟩, fun f hf => ?_, hnames,
    ensure_ensure hrequired fields⟩
  · exact List.forall₂_map_right_iff.2 (List.forall₂_same.2 fun r _ => leads_fieldFor fields r)
  · rw [ensure, others_eq]
  · exact List.count_eq_one_of_mem hnames.of_map (mem_ensure hfields hf)

def accountRequired : RequiredFields := [("id", [.word "Uuid"]), ("base", [.word "AggregateBase"])]

def accountFields : List Field :=
  [⟨some "owner", [.word "String"], [], []⟩, ⟨some "base", [.word "Base"], [.word "pub"], []⟩]

theorem ensure_reorders_account :
    (accountRequired.map (·.1)).Nodup ∧ (accountFields.map (·.name)).Nodup ∧
      accountRequired.ensure accountFields = [⟨some "id", [.word "Uuid"], [], []⟩,
        ⟨some "base", [.word "Base"], [.word "pub"], []⟩,
        ⟨some "owner", [.word "String"], [], []⟩] := by
  have hrequired : (accountRequired.map (·.1)).Nodup := by decide
  have hfields : (accountFields.map (·.name)).Nodup := by decide
  obtain ⟨⟨leading, hleads, heq⟩, -, -, -⟩ :=
    ensure_reorders accountRequired accountFields hrequired hfields
  refine ⟨hrequired, hfields, heq.trans ?_⟩
  obtain _ | ⟨hid, _ | ⟨hbase, _ | _⟩⟩ := hleads
  cases hid with
  | declared hf hname =>
    simp only [accountFields, List.mem_cons, List.not_mem_nil, or_false] at hf
    rcases hf with rfl | rfl <;> nomatch hname
  | added hnone =>
    cases hbase with
    | added hnone => exact absurd rfl (hnone _ (List.mem_cons_of_mem _ (List.mem_singleton_self _)))
    | declared hf hname =>
      simp only [accountFields, List.mem_cons, List.not_mem_nil, or_false] at hf
      rcases hf with rfl | rfl
      · nomatch hname
      · decide

end Reordering

end RequiredFields

end EventSourcing.Declaration
