import EventSourcing.Declaration.Derive
import Mathlib.Data.List.Induction

/-!
Merging derived traits. What is left of a list of paths are those with a key that no path in front of
them has. So it has each key once, and merging the attributes once more, with the same required
traits, leaves them alone.
-/

namespace EventSourcing.Declaration

namespace Derive

variable {seen : List String} {p : Path} {ps : List Path}

theorem distinct_cons_of_mem (h : p.key ∈ seen) (ps : List Path) :
    distinct seen (p :: ps) = distinct seen ps :=
  if_pos (List.contains_iff_mem.2 h)

theorem distinct_cons_of_not_mem (h : p.key ∉ seen) (ps : List Path) :
    distinct seen (p :: ps) = p :: distinct (p.key :: seen) ps :=
  if_neg fun hp => h (List.contains_iff_mem.1 hp)

/-- It does not matter in which order keys were seen, or how often. -/
theorem distinct_congr {seen' : List String} (h : ∀ k, k ∈ seen ↔ k ∈ seen') (ps : List Path) :
    distinct seen ps = distinct seen' ps := by
  induction ps generalizing seen seen' with
  | nil => rfl
  | cons p rest ih =>
    by_cases hp : p.key ∈ seen
    · rw [distinct_cons_of_mem hp, distinct_cons_of_mem ((h p.key).1 hp), ih h]
    · have hcons : ∀ k, k ∈ p.key :: seen ↔ k ∈ p.key :: seen' := fun k => by
        rw [List.mem_cons, List.mem_cons, h k]
      rw [distinct_cons_of_not_mem hp, distinct_cons_of_not_mem (mt (h p.key).2 hp), ih hcons]

theorem distinct_append (seen : List String) (ps qs : List Path) :
    distinct seen (ps ++ qs) = distinct seen ps ++ distinct (ps.map Path.key ++ seen) qs := by
  induction ps generalizing seen with
  | nil => rfl
  | cons p rest ih =>
    rw [List.cons_append, List.map_cons, List.cons_append]
    by_cases hp : p.key ∈ seen
    · rw [distinct_cons_of_mem hp, distinct_cons_of_mem hp, ih]
      refine congrArg (_ ++ ·) (distinct_congr (fun k => ?_) qs)
      rw [List.mem_cons, or_iff_right_of_imp]
      rintro rfl
      exact List.mem_append_right _ hp
    · rw [distinct_cons_of_not_mem hp, distinct_cons_of_not_mem hp, ih, List.cons_append]
      refine congrArg (p :: _ ++ ·) (distinct_congr (fun k => ?_) qs)
      simp only [List.mem_append, List.mem_cons]
      exact or_left_comm

theorem mem_keys_distinct {k : String} :
    k ∈ (distinct seen ps).map Path.key ↔ k ∈ ps.map Path.key ∧ k ∉ seen := by
  induction ps generalizing seen with
  | nil => simp [distinct]
  | cons p rest ih =>
    by_cases hp : p.key ∈ seen
    · rw [distinct_cons_of_mem hp, ih, List.map_cons, List.mem_cons]
      refine ⟨fun ⟨hk, hnew⟩ => ⟨Or.inr hk, hnew⟩, ?_⟩
      rintro ⟨rfl | hk, hnew⟩
      · exact absurd hp hnew
      · exact ⟨hk, hnew⟩
    · rw [distinct_cons_of_not_mem hp, List.map_cons, List.mem_cons, ih, List.map_cons, List.mem_cons,
        List.mem_cons, not_or]
      by_cases hk : k = p.key
      · simp [hk, hp]
      · simp [hk]

theorem nodup_keys_distinct (seen : List String) (ps : List Path) :
    ((distinct seen ps).map Path.key).Nodup := by
  induction ps generalizing seen with
  | nil => exact List.nodup_nil
  | cons p rest ih =>
    by_cases hp : p.key ∈ seen
    · rw [distinct_cons_of_mem hp]
      exact ih seen
    · rw [distinct_cons_of_not_mem hp, List.map_cons, List.nodup_cons]
      exact ⟨fun hk => (mem_keys_distinct.1 hk).2 (List.mem_cons_self ..), ih _⟩

theorem distinct_eq_self (hnew : ∀ p ∈ ps, p.key ∉ seen) (hnodup : (ps.map Path.key).Nodup) :
    distinct seen ps = ps := by
  induction ps generalizing seen with
  | nil => rfl
  | cons p rest ih =>
    rw [List.map_cons, List.nodup_cons] at hnodup
    obtain ⟨hp, hrest⟩ := List.forall_mem_cons.1 hnew
    rw [distinct_cons_of_not_mem hp, ih (fun q hq => ?_) hnodup.2]
    rw [List.mem_cons, not_or]
    exact ⟨fun heq => hnodup.1 (heq ▸ List.mem_map_of_mem hq), hrest q hq⟩

theorem distinct_eq_nil (h : ∀ p ∈ ps, p.key ∈ seen) : distinct seen ps = [] := by
  induction ps with
  | nil => rfl
  | cons p rest ih =>
    obtain ⟨hp, hrest⟩ := List.forall_mem_cons.1 h
    rw [distinct_cons_of_mem hp, ih hrest]

theorem distinct_again (ps required : List Path) :
    distinct [] (distinct [] (ps ++ required) ++ required) = distinct [] (ps ++ required) := by
  have hself : distinct [] (distinct [] (ps ++ required)) = distinct [] (ps ++ required) :=
    distinct_eq_self (fun _ _ => List.not_mem_nil) (nodup_keys_distinct [] _)
  have hnone : distinct ((distinct [] (ps ++ required)).map Path.key ++ []) required = [] := by
    refine distinct_eq_nil fun p hp => ?_
    rw [List.append_nil, mem_keys_distinct, List.map_append]
    exact ⟨List.mem_append_right _ (List.mem_map_of_mem hp), List.not_mem_nil⟩
  rw [distinct_append [] (distinct [] (ps ++ required)), hself, hnone, List.append_nil]

theorem find?_distinct {k : String} (h : k ∉ seen) (ps : List Path) :
    (distinct seen ps).find? (fun p => p.key = k) = ps.find? fun p => p.key = k := by
  induction ps generalizing seen with
  | nil => rfl
  | cons p rest ih =>
    by_cases hp : p.key ∈ seen
    · have hk : p.key ≠ k := fun heq => h (heq ▸ hp)
      rw [distinct_cons_of_mem hp, ih h, List.find?_cons_of_neg (by simpa using hk)]
    · rw [distinct_cons_of_not_mem hp]
      by_cases hk : p.key = k
      · rw [List.find?_cons_of_pos (by simpa using hk), List.find?_cons_of_pos (by simpa using hk)]
      · have hnew : k ∉ p.key :: seen := by
          rw [List.mem_cons, not_or]
          exact ⟨Ne.symm hk, h⟩
        rw [List.find?_cons_of_neg (by simpa using hk), List.find?_cons_of_neg (by simpa using hk),
          ih hnew]

section Firsts

variable {key : Path → String} {q : Path} {i : Nat}

/-- The paths with a key that none in front of them has, each with its place. -/
def firsts (key : Path → String) (ps : List Path) : List (Path × Nat) :=
  ps.zipIdx.filter fun e => key e.1 ∉ (ps.take e.2).map key

theorem firsts_concat (key : Path → String) (ps : List Path) (p : Path) : firsts key (ps ++ [p]) =
    firsts key ps ++ if key p ∈ ps.map key then [] else [(p, ps.length)] := by
  unfold firsts
  rw [List.zipIdx_append, List.filter_append]
  congr 1
  · refine List.filter_congr fun e he => ?_
    have hplace : e.2 < ps.length := by simpa using List.snd_lt_of_mem_zipIdx he
    rw [List.take_append_of_le_length (Nat.le_of_lt hplace)]
  · by_cases hp : key p ∈ ps.map key <;> simp [hp]

/-- The induction adds paths at the end, as a path does not matter for those in front of it. -/
theorem distinct_eq_firsts (ps : List Path) : distinct [] ps = (firsts Path.key ps).map Prod.fst := by
  induction ps using List.reverseRecOn with
  | nil => rfl
  | append_singleton ps p ih =>
    rw [distinct_append, firsts_concat, List.map_append, ih, List.append_nil]
    by_cases hp : p.key ∈ ps.map Path.key
    · rw [distinct_cons_of_mem hp, if_pos hp]
      rfl
    · rw [distinct_cons_of_not_mem hp, if_neg hp]
      rfl

theorem mem_firsts :
    (p, i) ∈ firsts key ps ↔ ps[i]? = some p ∧ key p ∉ (ps.take i).map key := by
  rw [firsts, List.mem_filter, List.mem_zipIdx_iff_getElem?, decide_eq_true_iff]

theorem mem_keys_take {k : String} :
    k ∈ (ps.take i).map key ↔ ∃ q j, ps[j]? = some q ∧ j < i ∧ key q = k := by
  rw [List.mem_map]
  simp only [List.mem_iff_getElem?, List.getElem?_take]
  constructor
  · rintro ⟨q, ⟨j, hq⟩, hkey⟩
    split at hq
    · exact ⟨q, j, hq, ‹_›, hkey⟩
    · nomatch hq
  · rintro ⟨q, j, hq, hj, hkey⟩
    exact ⟨q, ⟨j, by rwa [if_pos hj]⟩, hkey⟩

/-- Each key has a first path; the induction goes to ever earlier ones. -/
theorem exists_mem_firsts (h : ps[i]? = some p) :
    ∃ q j, (q, j) ∈ firsts key ps ∧ j ≤ i ∧ key q = key p := by
  induction i using Nat.strongRecOn generalizing p with
  | ind i ih =>
    by_cases hfirst : key p ∈ (ps.take i).map key
    · obtain ⟨r, j, hr, hj, hkey⟩ := mem_keys_take.1 hfirst
      obtain ⟨q, j', hq, hle, hsame⟩ := ih j hj hr
      exact ⟨q, j', hq, Nat.le_trans hle (Nat.le_of_lt hj), hsame.trans hkey⟩
    · exact ⟨p, i, mem_firsts.2 ⟨h, hfirst⟩, Nat.le_refl i, rfl⟩

theorem not_mem_firsts_iff (h : ps[i]? = some p) :
    (p, i) ∉ firsts key ps ↔ ∃ q j, (q, j) ∈ firsts key ps ∧ j < i ∧ key q = key p := by
  rw [mem_firsts, and_iff_right h, not_not]
  constructor
  · intro hseen
    obtain ⟨r, j, hr, hj, hkey⟩ := mem_keys_take.1 hseen
    obtain ⟨q, j', hq, hle, hsame⟩ := exists_mem_firsts hr
    exact ⟨q, j', hq, Nat.lt_of_le_of_lt hle hj, hsame.trans hkey⟩
  · rintro ⟨q, j, hq, hj, hkey⟩
    exact mem_keys_take.2 ⟨q, j, (mem_firsts.1 hq).1, hj, hkey⟩

theorem firsts_unique {j : Nat} (hp : (p, i) ∈ firsts key ps) (hq : (q, j) ∈ firsts key ps)
    (h : key q = key p) : (q, j) = (p, i) := by
  obtain ⟨hp, hfirst⟩ := mem_firsts.1 hp
  obtain ⟨hq, hfirst'⟩ := mem_firsts.1 hq
  rcases Nat.lt_trichotomy j i with hlt | rfl | hlt
  · exact absurd (mem_keys_take.2 ⟨q, j, hq, hlt, h⟩) hfirst
  · rw [Option.some.inj (hq.symm.trans hp)]
  · exact absurd (mem_keys_take.2 ⟨p, i, hp, hlt, h.symm⟩) hfirst'

theorem firsts_congr {key' : Path → String}
    (h : ∀ p ∈ ps, ∀ q ∈ ps, key q = key p ↔ key' q = key' p) : firsts key ps = firsts key' ps := by
  refine List.filter_congr fun e he => ?_
  have hmem : e.1 ∈ ps := List.fst_mem_of_mem_zipIdx he
  rw [decide_eq_decide, List.mem_map, List.mem_map]
  refine not_congr (exists_congr fun q => and_congr_right fun hq => ?_)
  exact h e.1 hmem q (List.mem_of_mem_take hq)

end Firsts

section Attributes

variable (attrs : List Attribute) (required : List Path)

theorem existing_retained : existing (retained attrs) = [] := by
  refine List.flatMap_eq_nil_iff.2 fun a ha => ?_
  have hother := (List.mem_filter.1 ha).2
  cases a with
  | other tokens => rfl
  | derive ps => nomatch hother
  | badDerive arguments => nomatch hother

theorem retained_merge : retained (merge attrs required) = retained attrs := by
  show retained (retained attrs) = retained attrs
  unfold retained
  rw [List.filter_filter]
  simp only [Bool.and_self]

theorem existing_merge :
    existing (merge attrs required) = distinct [] (existing attrs ++ required) := by
  show distinct [] (existing attrs ++ required) ++ existing (retained attrs) = _
  rw [existing_retained, List.append_nil]

theorem merge_merge : merge (merge attrs required) required = merge attrs required := by
  show .derive (distinct [] (existing (merge attrs required) ++ required)) ::
    retained (merge attrs required) = _
  rw [existing_merge, retained_merge, distinct_again]
  rfl

/-- There is one derive attribute, in front of the others, which stay as they are. It has those of the
paths derived so far and then of the required ones with a key that no path in front of them has. So
each of their keys is there once, spelled as it was first, and merging again changes nothing. -/
theorem merge_normalizes (attrs : List Attribute) (required : List Path) :
    (∃ paths, merge attrs required = .derive paths :: attrs.filter (fun a => !a.isDerive) ∧
      paths = (firsts Path.key (attrs.flatMap Attribute.paths ++ required)).map Prod.fst ∧
      (paths.map Path.key).Nodup ∧
      (∀ k, k ∈ paths.map Path.key ↔
        k ∈ (attrs.flatMap Attribute.paths).map Path.key ∨ k ∈ required.map Path.key) ∧
      ∀ k, paths.find? (fun p => p.key = k) =
        ((attrs.flatMap Attribute.paths).find? fun p => p.key = k).or
          (required.find? fun p => p.key = k)) ∧
    merge (merge attrs required) required = merge attrs required := by
  refine ⟨⟨distinct [] (existing attrs ++ required), rfl, distinct_eq_firsts _,
    nodup_keys_distinct [] _, fun k => ?_, fun k => ?_⟩, merge_merge attrs required⟩
  · rw [mem_keys_distinct, List.map_append, List.mem_append]
    exact and_iff_left List.not_mem_nil
  · rw [find?_distinct List.not_mem_nil, List.find?_append]
    rfl

example : merge [.other [.word "serde"], .derive [.bare "Clone", .bare "Serialize"], .badDerive []]
    [.bare "Debug", .bare "Clone", .of ["serde"] "Serialize"] =
      [.derive [.bare "Clone", .bare "Serialize", .bare "Debug"], .other [.word "serde"]] := by
  decide

end Attributes

end Derive

end EventSourcing.Declaration
