import EventSourcing.Proofs.Expanding

/-!
Which derived traits an expansion leaves out. Traits are told apart by the last names of their paths
alone, so a path is left out just if one with the same last name is in front of it. That is a
repetition as long as each path is spelled like the first one of its name; but a trait of one crate
hides a trait of another crate that is called the same.
-/

namespace EventSourcing.Declaration

namespace Path

variable {p q : Path}

def shortened (p : Path) : Path := ⟨false, [], p.last⟩

/-- Two paths that may be one trait: they are equal, or one is the last name of the other. -/
def Alike (p q : Path) : Prop := p = q ∨ p = q.shortened ∨ q = p.shortened

instance (p q : Path) : Decidable (p.Alike q) := inferInstanceAs (Decidable (_ ∨ _ ∨ _))

theorem Alike.last_eq (h : p.Alike q) : p.last = q.last := by
  rcases h with rfl | rfl | rfl <;> rfl

/-- Keys are as different as the names that they are made of, in which no colons are. -/
theorem key_eq_iff (hp : ':' ∉ p.last.name.toList) (hq : ':' ∉ q.last.name.toList) :
    p.key = q.key ↔ p.last.name = q.last.name := by
  constructor
  · intro h
    unfold key at h
    split at h <;> split at h
    · exact (String.append_right_inj _).1 h
    -- only one of the keys has a colon
    · exact absurd (by simp [← h]) hq
    · exact absurd (by simp [h]) hp
    · exact h
  · intro h
    rw [key, key, h]

end Path

namespace Expansion

variable {role : Role} {argument : List Token} {item : Item} {x : Expansion}

def listed (role : Role) (item : Item) : List Path :=
  item.attributes.flatMap Attribute.paths ++ derived role

/-- Nothing is left out of these paths but what may be the same trait as one that is kept in front. -/
def LeavesOutRepeats (paths : List Path) (kept : List (Path × Nat)) : Prop :=
  ∀ p i, (p, i) ∈ paths.zipIdx → (p, i) ∉ kept → ∃ q j, (q, j) ∈ kept ∧ j < i ∧ q.Alike p

theorem colon_not_mem_listed (role : Role)
    (hnames : ∀ p ∈ item.attributes.flatMap Attribute.paths, ':' ∉ p.last.name.toList) :
    ∀ p ∈ listed role item, ':' ∉ p.last.name.toList := by
  intro p hp
  rcases List.mem_append.1 hp with hwritten | hderived
  · exact hnames p hwritten
  · have hall : ∀ p ∈ derived role, ':' ∉ p.last.name.toList := by
      cases role <;> decide
    exact hall p hderived

theorem attributes_eq
    (hnames : ∀ p ∈ item.attributes.flatMap Attribute.paths, ':' ∉ p.last.name.toList)
    (h : expand role argument item = .ok x) : x.item.attributes =
      .derive ((Derive.firsts (·.last.name) (listed role item)).map Prod.fst) ::
        item.attributes.filter fun a => !a.isDerive := by
  have hnames := colon_not_mem_listed role hnames
  have hfirsts : Derive.firsts Path.key (listed role item) =
      Derive.firsts (·.last.name) (listed role item) :=
    Derive.firsts_congr fun p hp q hq => Path.key_eq_iff (hnames q hq) (hnames p hp)
  obtain ⟨tag, shaped, -, hshaped, rfl⟩ := expand_eq_ok.1 h
  obtain ⟨-, body, -, rfl⟩ := reshape_eq_ok.1 hshaped
  rw [← hfirsts, ← Derive.distinct_eq_firsts]
  rfl

/-- Each name has one path that is kept, so that this is the one that a path left out has to repeat. -/
theorem leavesOutRepeats_iff (paths : List Path) :
    LeavesOutRepeats paths (Derive.firsts (·.last.name) paths) ↔
      ∀ p ∈ paths, ∀ q ∈ (Derive.firsts (·.last.name) paths).map Prod.fst,
        q.last.name = p.last.name → q.Alike p := by
  constructor
  · intro h p hp q hq hname
    obtain ⟨i, hi⟩ := List.mem_iff_getElem?.1 hp
    obtain ⟨⟨_, j⟩, hkept, rfl⟩ := List.mem_map.1 hq
    by_cases hfirst : (p, i) ∈ Derive.firsts (·.last.name) paths
    · have hsame := Derive.firsts_unique hfirst hkept hname
      exact Or.inl (congrArg Prod.fst hsame)
    · obtain ⟨r, k, hr, -, halike⟩ := h p i (List.mem_zipIdx_iff_getElem?.2 hi) hfirst
      have hname' : r.last.name = p.last.name := congrArg PathSegment.name halike.last_eq
      have hsame := Derive.firsts_unique hr hkept (hname.trans hname'.symm)
      rw [congrArg Prod.fst hsame]
      exact halike
  · intro h p i hp hleft
    have hi := List.mem_zipIdx_iff_getElem?.1 hp
    obtain ⟨q, j, hq, hj, hname⟩ := (Derive.not_mem_firsts_iff hi).1 hleft
    exact ⟨q, j, hq, hj, h p (List.mem_of_getElem? hi) q (List.mem_map_of_mem hq) hname⟩

/-- A path is left out just if one with the same last name is kept in front of it. So whatever is left
out may be the same trait as what is kept in front just if each path, written or required, is equal to
the one that is kept for its name, or one of the two is the last name of the other. -/
theorem derives_by_last_name (role : Role) (argument : List Token) (item : Item) (x : Expansion)
    (hnames : ∀ p ∈ item.attributes.flatMap Attribute.paths, ':' ∉ p.last.name.toList)
    (h : expand role argument item = .ok x) :
    ∃ kept : List (Path × Nat), kept.Sublist (listed role item).zipIdx ∧
      x.item.attributes =
        .derive (kept.map Prod.fst) :: item.attributes.filter (fun a => !a.isDerive) ∧
      (∀ p i, (p, i) ∈ (listed role item).zipIdx →
        ((p, i) ∉ kept ↔ ∃ q j, (q, j) ∈ kept ∧ j < i ∧ q.last.name = p.last.name)) ∧
      (LeavesOutRepeats (listed role item) kept ↔ ∀ p ∈ listed role item,
        ∀ q ∈ kept.map Prod.fst, q.last.name = p.last.name → q.Alike p) := by
  refine ⟨Derive.firsts (·.last.name) (listed role item), List.filter_sublist,
    attributes_eq hnames h, fun p i hp => ?_, leavesOutRepeats_iff _⟩
  exact Derive.not_mem_firsts_iff (List.mem_zipIdx_iff_getElem?.1 hp)

def checkedIn : Item where
  name := "ItemsCheckedIn"
  visibility := []
  attributes := [.derive [.bare "Serialize", .bare "Deserialize"], .other [.word "serde"],
    .derive [.of ["serde"] "Serialize"]]
  generics := []
  conditions := []
  body := .struct .unit

theorem derives_by_last_name_checked_in :
    (∀ p ∈ checkedIn.attributes.flatMap Attribute.paths, ':' ∉ p.last.name.toList) ∧
      ∃ x kept, expand .event [] checkedIn = .ok x ∧
        x.item.attributes = [.derive (kept.map Prod.fst), .other [.word "serde"]] ∧
        kept.map Prod.fst = [.bare "Serialize", .bare "Deserialize", .bare "Debug", .bare "Clone",
          .bare "PartialEq"] ∧
        LeavesOutRepeats (listed .event checkedIn) kept := by
  have hnames : ∀ p ∈ checkedIn.attributes.flatMap Attribute.paths, ':' ∉ p.last.name.toList := by
    decide
  have hx : expand .event [] checkedIn = .ok ⟨withDerived .event checkedIn, checkedIn.name,
      implemented .event checkedIn⟩ := rfl
  obtain ⟨kept, -, hattributes, -, hiff⟩ := derives_by_last_name .event [] checkedIn _ hnames hx
  have hkept : kept.map Prod.fst = [.bare "Serialize", .bare "Deserialize", .bare "Debug",
      .bare "Clone", .bare "PartialEq"] := by
    rw [← Attribute.derive.inj (List.cons.inj hattributes).1]
    decide
  refine ⟨hnames, _, kept, hx, hattributes, hkept, hiff.2 ?_⟩
  rw [hkept]
  decide

/-- An event that derives a trait of the same name from two crates. -/
def archived : Item where
  name := "Archived"
  visibility := []
  attributes := [.derive [.of ["rkyv"] "Serialize", .of ["serde"] "Serialize"]]
  generics := []
  conditions := []
  body := .struct .unit

/-- The trait of one crate hides that of the other, although the item and its role both ask for it. -/
theorem trait_of_other_crate_hidden : ∃ x paths, expand .event [] archived = .ok x ∧
    x.item.attributes = [.derive paths] ∧
    .of ["serde"] "Serialize" ∈ archived.attributes.flatMap Attribute.paths ∧
    .of ["serde"] "Serialize" ∈ derived .event ∧
    (∀ q ∈ paths, ¬ q.Alike (.of ["serde"] "Serialize")) ∧
    ∀ kept : List (Path × Nat), kept.map Prod.fst = paths →
      ¬ LeavesOutRepeats (listed .event archived) kept := by
  have hhidden : ∀ q ∈ Derive.distinct [] (listed .event archived),
      ¬ q.Alike (.of ["serde"] "Serialize") := by
    decide
  refine ⟨_, _, rfl, rfl, by decide, by decide, hhidden, fun kept hkept h => ?_⟩
  have hleft : (.of ["serde"] "Serialize", 1) ∉ kept := fun hmem =>
    hhidden _ (hkept ▸ List.mem_map_of_mem hmem) (Or.inl rfl)
  obtain ⟨q, j, hq, -, halike⟩ := h (.of ["serde"] "Serialize") 1 (by decide) hleft
  exact hhidden q (hkept ▸ List.mem_map_of_mem hq) halike

end Expansion

end EventSourcing.Declaration
