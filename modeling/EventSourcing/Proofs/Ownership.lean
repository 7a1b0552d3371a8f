import EventSourcing.Application.CommandHandling
import EventSourcing.Application.Dispatcher
import Mathlib.Data.List.Induction
import Mathlib.Data.List.Nodup

/-!
One owner per tag. A registry is seen through the calls that were granted: whatever calls are made
of an empty one, a tag leads to the delegate of the first granted call that names it, and stays
there. A call is granted just if its tags are new and name nothing twice; one that is not changes
nothing and says which tag is the first that stands against it.
-/

namespace EventSourcing

variable {π κ σ α β δ ξ ε ι γ ω : Type}

namespace Registry

section FirstRefused

variable {taken : String → Bool} {seen tags : List String} {t : String}

theorem firstRefused_eq_none :
    firstRefused taken seen tags = none ↔
      tags.Nodup ∧ ∀ t ∈ tags, t ∉ seen ∧ taken t = false := by
  induction tags generalizing seen with
  | nil => simp [firstRefused]
  | cons tag rest ih =>
    simp only [firstRefused, Bool.or_eq_true, List.contains_iff_mem, List.nodup_cons,
      List.forall_mem_cons]
    by_cases h : tag ∈ seen ∨ taken tag = true
    · rw [if_pos h]
      refine ⟨fun h' => (nomatch h'), fun ⟨_, ⟨hseen, htaken⟩, _⟩ => ?_⟩
      rcases h with h | h
      · exact absurd h hseen
      · rw [h] at htaken; nomatch htaken
    · rw [if_neg h, ih]
      grind

/-- The tag that is refused repeats an earlier one, is among those seen before or is taken, and no
tag in front of it does. -/
theorem firstRefused_eq_some (h : firstRefused taken seen tags = some t) :
    ∃ before after, tags = before ++ t :: after ∧ (t ∈ before ∨ t ∈ seen ∨ taken t = true) ∧
      before.Nodup ∧ ∀ u ∈ before, u ∉ seen ∧ taken u = false := by
  induction tags generalizing seen with
  | nil => nomatch h
  | cons tag rest ih =>
    simp only [firstRefused, Bool.or_eq_true, List.contains_iff_mem] at h
    by_cases hr : tag ∈ seen ∨ taken tag = true
    · rw [if_pos hr] at h
      obtain rfl := Option.some.inj h
      exact ⟨[], rest, rfl, Or.inr hr, List.nodup_nil, fun u hu => nomatch hu⟩
    · rw [if_neg hr] at h
      obtain ⟨before, after, rfl, hwhy, hnodup, hbefore⟩ := ih h
      refine ⟨tag :: before, after, rfl, ?_, ?_, ?_⟩
      · grind
      · exact List.nodup_cons.2 ⟨fun hm => (hbefore tag hm).1 (List.mem_cons_self ..), hnodup⟩
      · grind

end FirstRefused

variable {r : Registry δ} {tags : List String} {d : δ} {t : String}

theorem find?_foldl_insert (tags : List String) (d : δ) (r : Registry δ) (t : String) :
    (tags.foldl (insert d) r).find? t = if t ∈ tags then some d else r.find? t := by
  induction tags generalizing r with
  | nil => rfl
  | cons tag rest ih =>
    rw [List.foldl_cons, ih, find?_insert]
    by_cases hrest : t ∈ rest
    · rw [if_pos hrest, if_pos (List.mem_cons_of_mem _ hrest)]
    · rw [if_neg hrest]
      simp only [List.mem_cons, hrest, or_false]

theorem has_eq_false : r.has t = false ↔ r.find? t = none := by
  unfold has
  exact Option.isSome_eq_false_iff.trans Option.isNone_iff_eq_none

theorem firstRefused_has_eq_none : firstRefused r.has [] tags = none ↔
    tags.Nodup ∧ ∀ t ∈ tags, r.find? t = none := by
  simp only [firstRefused_eq_none, List.not_mem_nil, not_false_eq_true, true_and, has_eq_false]

theorem register_eq_ok (h : tags.Nodup ∧ ∀ t ∈ tags, r.find? t = none) :
    register tags d r = (.ok (), tags.foldl (insert d) r) := by
  simp only [register, firstRefused_has_eq_none.2 h]

theorem register_eq_fail (h : ¬ (tags.Nodup ∧ ∀ t ∈ tags, r.find? t = none)) :
    ∃ before t after, register tags d r = (.fail t, r) ∧ tags = before ++ t :: after ∧
      (t ∈ before ∨ r.find? t ≠ none) ∧ before.Nodup ∧ ∀ u ∈ before, r.find? u = none := by
  obtain ⟨t, ht⟩ := Option.ne_none_iff_exists'.1 fun hnone => h (firstRefused_has_eq_none.1 hnone)
  obtain ⟨before, after, htags, hwhy, hnodup, hbefore⟩ := firstRefused_eq_some ht
  refine ⟨before, t, after, by simp only [register, ht], htags, ?_, hnodup,
    fun u hu => has_eq_false.1 (hbefore u hu).2⟩
  rcases hwhy with h | h | h
  · exact Or.inl h
  · nomatch h
  · refine Or.inr fun hnone => ?_
    rw [has_eq_false.2 hnone] at h
    nomatch h

/-- A kind of registry: what a call asks it to register, how it refuses, and what it answers to
those who ask, where a delegate is in charge of the tag and where none is. -/
structure Kind (δ ξ ε ι γ : Type) where
  tags : ξ → List String
  delegate : ξ → δ
  register : ξ → Action (Registry δ) ε Unit
  refusal : String → ε
  tagOf : ι → String
  answer : Registry δ → ι → γ
  answerOf : ι → Option δ → γ

structure Ledger (δ ξ : Type) where
  registry : Registry δ
  granted : List ξ

namespace Kind

/-- The registry is the one that the call leaves, whether it is granted or not. -/
def call (k : Kind δ ξ ε ι γ) (l : Ledger δ ξ) (c : ξ) : Ledger δ ξ :=
  match k.register c l.registry with
  | (.ok (), r) => ⟨r, l.granted ++ [c]⟩
  | (.error _, r) => ⟨r, l.granted⟩

def run (k : Kind δ ξ ε ι γ) (calls : List ξ) : Ledger δ ξ := calls.foldl k.call ⟨.empty, []⟩

def owner? (k : Kind δ ξ ε ι γ) (granted : List ξ) (t : String) : Option δ :=
  (granted.find? fun c => t ∈ k.tags c).map k.delegate

def Owned (k : Kind δ ξ ε ι γ) (granted : List ξ) (t : String) : Prop :=
  ∃ c ∈ granted, t ∈ k.tags c

structure OneOwner (k : Kind δ ξ ε ι γ) : Prop where
  granted_iff : ∀ calls c, (k.register c (k.run calls).registry).1 = .ok () ↔
    (k.tags c).Nodup ∧ ∀ t ∈ k.tags c, ¬ k.Owned (k.run calls).granted t
  granted : ∀ calls c r, k.register c (k.run calls).registry = (.ok (), r) →
    (k.run (calls ++ [c])).registry = r ∧ ∀ i, k.answer r i =
      if k.tagOf i ∈ k.tags c then k.answerOf i (some (k.delegate c))
      else k.answer (k.run calls).registry i
  refused : ∀ calls c fault r, k.register c (k.run calls).registry = (.error fault, r) →
    (k.run (calls ++ [c])).registry = r ∧
    (∀ i, k.answer r i = k.answer (k.run calls).registry i) ∧
    ∃ before t after, k.tags c = before ++ t :: after ∧ fault = .error (k.refusal t) ∧
      (t ∈ before ∨ k.Owned (k.run calls).granted t) ∧
      before.Nodup ∧ ∀ u ∈ before, ¬ k.Owned (k.run calls).granted u
  owner : ∀ calls i, k.answer (k.run calls).registry i =
    k.answerOf i (k.owner? (k.run calls).granted (k.tagOf i))
  kept : ∀ calls more i, k.Owned (k.run calls).granted (k.tagOf i) →
    k.answer (k.run (calls ++ more)).registry i = k.answer (k.run calls).registry i

structure Plain (k : Kind δ ξ ε ι γ) : Prop where
  register : ∀ c r, k.register c r =
    ((Registry.register (k.tags c) (k.delegate c) r).1.mapError k.refusal,
      (Registry.register (k.tags c) (k.delegate c) r).2)
  answer : ∀ r i, k.answer r i = k.answerOf i (r.find? (k.tagOf i))

variable {k : Kind δ ξ ε ι γ} {granted : List ξ} {c : ξ} {t : String}

theorem owner?_eq_none : k.owner? granted t = none ↔ ¬ k.Owned granted t := by
  unfold owner? Owned
  simp

theorem owner?_append (granted more : List ξ) (t : String) :
    k.owner? (granted ++ more) t = (k.owner? granted t).or (k.owner? more t) := by
  unfold owner?
  rw [List.find?_append]
  cases granted.find? fun c => t ∈ k.tags c <;> rfl

theorem owner?_singleton :
    k.owner? [c] t = if t ∈ k.tags c then some (k.delegate c) else none := by
  unfold owner?
  by_cases h : t ∈ k.tags c <;> simp [h]

theorem run_concat (calls : List ξ) (c : ξ) : k.run (calls ++ [c]) = k.call (k.run calls) c := by
  simp [run]

theorem call_of_ok {l : Ledger δ ξ} {r : Registry δ} (h : k.register c l.registry = (.ok (), r)) :
    k.call l c = ⟨r, l.granted ++ [c]⟩ := by
  simp only [call, h]

theorem call_of_error {l : Ledger δ ξ} {fault : Fault ε} {r : Registry δ}
    (h : k.register c l.registry = (.error fault, r)) : k.call l c = ⟨r, l.granted⟩ := by
  simp only [call, h]

theorem granted_prefix (calls more : List ξ) :
    (k.run calls).granted <+: (k.run (calls ++ more)).granted := by
  induction more using List.reverseRecOn with
  | nil => simp
  | append_singleton more c ih =>
    rw [← List.append_assoc, run_concat]
    rcases h : k.register c (k.run (calls ++ more)).registry with ⟨fault | _, r⟩
    · rwa [call_of_error h]
    · rw [call_of_ok h]
      exact ih.trans (List.prefix_append _ _)

namespace Plain

variable (hk : k.Plain)

include hk

theorem register_cases (c : ξ) (r : Registry δ) :
    (((k.tags c).Nodup ∧ ∀ t ∈ k.tags c, r.find? t = none) ∧
      k.register c r = (.ok (), (k.tags c).foldl (insert (k.delegate c)) r)) ∨
    (¬ ((k.tags c).Nodup ∧ ∀ t ∈ k.tags c, r.find? t = none) ∧
      ∃ before t after, k.register c r = (.fail (k.refusal t), r) ∧
        k.tags c = before ++ t :: after ∧ (t ∈ before ∨ r.find? t ≠ none) ∧
        before.Nodup ∧ ∀ u ∈ before, r.find? u = none) := by
  rw [hk.register]
  by_cases h : (k.tags c).Nodup ∧ ∀ t ∈ k.tags c, r.find? t = none
  · rw [register_eq_ok h]
    exact Or.inl ⟨h, rfl⟩
  · obtain ⟨before, t, after, hr, hwhy⟩ := register_eq_fail (d := k.delegate c) h
    rw [hr]
    exact Or.inr ⟨h, before, t, after, rfl, hwhy⟩

/-- A tag leads to its owner. -/
theorem find?_run (calls : List ξ) (t : String) :
    (k.run calls).registry.find? t = k.owner? (k.run calls).granted t := by
  induction calls using List.reverseRecOn with
  | nil => rfl
  | append_singleton calls c ih =>
    rw [run_concat]
    rcases hk.register_cases c (k.run calls).registry with ⟨⟨-, hnew⟩, h⟩ | ⟨-, _, _, _, h, -⟩
    · rw [call_of_ok h, owner?_append, ← ih, owner?_singleton, find?_foldl_insert]
      by_cases ht : t ∈ k.tags c
      · -- a granted call names no tag that has a delegate
        rw [if_pos ht, if_pos ht, hnew t ht]
        rfl
      · rw [if_neg ht, if_neg ht, Option.or_none]
    · rwa [call_of_error h]

theorem find?_run_eq_none (calls : List ξ) (t : String) :
    (k.run calls).registry.find? t = none ↔ ¬ k.Owned (k.run calls).granted t := by
  rw [hk.find?_run, owner?_eq_none]

theorem oneOwner : k.OneOwner where
  granted_iff := by
    intro calls c
    simp only [← hk.find?_run_eq_none]
    rcases hk.register_cases c (k.run calls).registry with ⟨h, hr⟩ | ⟨h, _, _, _, hr, -⟩
    · rw [hr]
      exact ⟨fun _ => h, fun _ => rfl⟩
    · rw [hr]
      exact ⟨fun hok => (nomatch hok), fun h' => absurd h' h⟩
  granted := by
    intro calls c r h
    refine ⟨by rw [run_concat, call_of_ok h], fun i => ?_⟩
    rcases hk.register_cases c (k.run calls).registry with ⟨-, hr⟩ | ⟨-, _, _, _, hr, -⟩
    · obtain rfl := congrArg Prod.snd (hr.symm.trans h)
      rw [hk.answer, hk.answer, find?_foldl_insert]
      split <;> rfl
    · nomatch hr.symm.trans h
  refused := by
    intro calls c fault r h
    refine ⟨by rw [run_concat, call_of_error h], ?_⟩
    rcases hk.register_cases c (k.run calls).registry with
      ⟨-, hr⟩ | ⟨-, before, t, after, hr, htags, hwhy, hnodup, hbefore⟩
    · nomatch hr.symm.trans h
    · obtain ⟨hfault, rfl⟩ := Prod.mk.inj (hr.symm.trans h)
      simp only [ne_eq, hk.find?_run_eq_none, not_not] at hwhy hbefore
      exact ⟨fun _ => rfl, before, t, after, htags, (Except.error.inj hfault).symm, hwhy, hnodup,
        hbefore⟩
  owner := by
    intro calls i
    rw [hk.answer, hk.find?_run]
  kept := by
    intro calls more i h
    obtain ⟨later, hlater⟩ := granted_prefix (k := k) calls more
    obtain ⟨d, hd⟩ := Option.ne_none_iff_exists'.1 fun hnone => owner?_eq_none.1 hnone h
    rw [hk.answer, hk.answer, hk.find?_run, hk.find?_run, ← hlater, owner?_append, hd]
    rfl

end Plain

end Kind

end Registry

def StreamNamer.kind (κ : Type) :
    Registry.Kind (String → String → String) (List String × (String → String → String))
      (DomainError κ) (String × String) (Except (DomainError κ) String) where
  tags := (·.1)
  delegate := (·.2)
  register c := StreamNamer.register c.1 c.2
  refusal := .alreadyRegistered "stream namer"
  tagOf := (·.1)
  answer n i := StreamNamer.streamName n i.1 i.2
  answerOf
    | i, some name => .ok (name i.1 i.2)
    | i, none => .error (.missingStreamNameDelegate i.1)

def Dispatcher.kind [CommandPayload κ]
    (runHandler : δ → CommandMessage κ → Action ω (AppError κ) Unit) :
    Registry.Kind δ (δ × List String) (AppError κ) (CommandMessage κ × ω)
      (Outcome (AppError κ) Unit × ω) where
  tags := (·.2)
  delegate := (·.1)
  register c := Dispatcher.register c.1 c.2
  refusal := .alreadyRegisteredCommand
  tagOf i := i.1.commandType
  answer d i := Dispatcher.dispatch d runHandler i.1 i.2
  answerOf
    | i, some handler => runHandler handler i.1 i.2
    | i, none => (.fail (.handlerNotFound i.1.commandType), i.2)

/-- Aggregate types by command type; a call names several command types. A command is answered with
an aggregate of the type. -/
def CommandMapping.kind [CommandPayload κ] (r : Repository π κ σ α β) :
    Registry.Kind String (String × List String) (AppError κ) (CommandMessage κ × α × β)
      (Outcome (AppError κ) (Aggregate π σ) × α × β) where
  tags := (·.2)
  delegate := (·.1)
  register c := CommandMapping.register c.1 c.2
  refusal := .alreadyRegisteredCommand
  tagOf i := i.1.commandType
  answer m i := CommandMapping.loadFor m r i.1 i.2
  answerOf
    | i, some type => ((r.load type i.1.aggregateId i.2).1.mapError .domain,
        (r.load type i.1.aggregateId i.2).2)
    | i, none => (.fail (.noAggregateMapping i.1.commandType), i.2)

def AggregateFactory.kind (π κ σ : Type) :
    Registry.Kind (String → Aggregate π σ) (String × (String → Aggregate π σ)) (DomainError κ)
      (String × String) (Option (Aggregate π σ)) where
  tags c := [c.1]
  delegate := (·.2)
  register c := AggregateFactory.register c.1 c.2
  refusal := .alreadyRegistered "aggregate factory"
  tagOf := (·.1)
  answer f i := AggregateFactory.make? f i.1 i.2
  answerOf i made := made.map fun make => make i.2

def EventFactory.kind (π κ : Type) :
    Registry.Kind (Json → Except String π) (String × (Json → Except String π)) (DomainError κ)
      (String × Json) (Option (Except String π)) where
  tags c := [c.1]
  delegate := (·.2)
  register c := EventFactory.register c.1 c.2
  refusal := .alreadyRegistered "event factory"
  tagOf := (·.1)
  answer f i := EventFactory.decode? f i.1 i.2
  answerOf i decoder := decoder.map fun decode => decode i.2

theorem StreamNamer.kind_plain : (StreamNamer.kind κ).Plain where
  register _ _ := rfl
  answer n i := by
    simp only [kind, streamName]
    cases n.find? i.1 <;> rfl

theorem Dispatcher.kind_plain [CommandPayload κ]
    (runHandler : δ → CommandMessage κ → Action ω (AppError κ) Unit) :
    (Dispatcher.kind runHandler).Plain where
  register _ _ := rfl
  answer d i := by
    simp only [kind, dispatch]
    cases d.find? i.1.commandType <;> rfl

theorem CommandMapping.kind_plain [CommandPayload κ] (r : Repository π κ σ α β) :
    (CommandMapping.kind r).Plain where
  register _ _ := rfl
  answer m i := by
    simp only [kind, loadFor]
    cases m.find? i.1.commandType <;> rfl

theorem AggregateFactory.kind_plain : (AggregateFactory.kind π κ σ).Plain where
  register _ _ := rfl
  answer _ _ := rfl

theorem EventFactory.kind_plain : (EventFactory.kind π κ).Plain where
  register _ _ := rfl
  answer _ _ := rfl

/-- Stream names, command handlers, aggregate types of commands, constructors and decoders: each tag
has one owner, and calls are granted whole or not at all. -/
theorem Registry.one_owner_per_tag [CommandPayload κ]
    (runHandler : δ → CommandMessage κ → Action ω (AppError κ) Unit) (r : Repository π κ σ α β) :
    (StreamNamer.kind κ).OneOwner ∧ (Dispatcher.kind runHandler).OneOwner ∧
      (CommandMapping.kind r).OneOwner ∧ (AggregateFactory.kind π κ σ).OneOwner ∧
      (EventFactory.kind π κ).OneOwner :=
  ⟨StreamNamer.kind_plain.oneOwner, (Dispatcher.kind_plain runHandler).oneOwner,
    (CommandMapping.kind_plain r).oneOwner, AggregateFactory.kind_plain.oneOwner,
    EventFactory.kind_plain.oneOwner⟩

end EventSourcing
