import EventSourcing.Inventory.Item
import Mathlib.Data.List.Basic
import Mathlib.Data.List.Induction
import Mathlib.Data.List.Perm.Basic

/-!
The account that a base keeps of its events. Whatever is called of a new base, an event that is
tracked stays pending until the first call that empties the pending changes, and that call alone
hands it over or discards it. Only commits and increments move the version.
-/

namespace EventSourcing

variable {π σ : Type}

theorem map_eq_ok {ε α β : Type} {x : Except ε α} {f : α → β} {b : β} :
    x.map f = .ok b ↔ ∃ a, x = .ok a ∧ b = f a := by
  cases x with
  | error e => exact ⟨fun h => (nomatch h), fun ⟨_, h, _⟩ => (nomatch h)⟩
  | ok a =>
    refine ⟨fun h => ⟨a, rfl, (Except.ok.inj h).symm⟩, ?_⟩
    rintro ⟨_, h, rfl⟩
    cases h
    rfl

theorem getElem?_concat_eq_some {α : Type} {l : List α} {x y : α} {i : Nat}
    (h : (l ++ [x])[i]? = some y) :
    (i < l.length ∧ l[i]? = some y) ∨ (i = l.length ∧ x = y) := by
  by_cases hi : i < l.length
  · rw [List.getElem?_append_left hi] at h
    exact Or.inl ⟨hi, h⟩
  · obtain rfl : i = l.length := by
      have := (List.getElem?_eq_some_iff.1 h).1
      simp at this
      omega
    exact Or.inr ⟨rfl, by simpa using h⟩

namespace AggregateBase

inductive Call (π : Type) where
  | track (e : EventMessage π)
  | increment
  | clear
  | commit
  | commitAt (start : Nat)

/-- How an event ends as a pending change, and by the call of which number. -/
inductive Fate where
  | handedOver (call : Nat)
  | discarded (call : Nat)
deriving DecidableEq

namespace Fate

def call : Fate → Nat
  | .handedOver j => j
  | .discarded j => j

def isHandedOver : Option Fate → Bool
  | some (.handedOver _) => true
  | _ => false

def isDiscarded : Option Fate → Bool
  | some (.discarded _) => true
  | _ => false

@[simp] theorem isHandedOver_none : isHandedOver none = false := rfl

@[simp] theorem isDiscarded_none : isDiscarded none = false := rfl

@[simp] theorem isHandedOver_getD_handedOver (f : Option Fate) (j : Nat) :
    isHandedOver (some (f.getD (.handedOver j))) = ! isDiscarded f := by
  rcases f with _ | _ | _ <;> rfl

@[simp] theorem isDiscarded_getD_handedOver (f : Option Fate) (j : Nat) :
    isDiscarded (some (f.getD (.handedOver j))) = isDiscarded f := by
  rcases f with _ | _ | _ <;> rfl

@[simp] theorem isHandedOver_getD_discarded (f : Option Fate) (j : Nat) :
    isHandedOver (some (f.getD (.discarded j))) = isHandedOver f := by
  rcases f with _ | _ | _ <;> rfl

@[simp] theorem isDiscarded_getD_discarded (f : Option Fate) (j : Nat) :
    isDiscarded (some (f.getD (.discarded j))) = ! isHandedOver f := by
  rcases f with _ | _ | _ <;> rfl

end Fate

namespace Call

/-- A commit answers with the events that it hands over, other calls have no answer. -/
def perform : Call π → AggregateBase π →
    Except Overflow (Option (List (EventMessage π)) × AggregateBase π)
  | .track e, b => .ok (none, b.trackChange e)
  | .increment, b => b.incrementVersion.map fun b => (none, b)
  | .clear, b => .ok (none, b.clearChanges)
  | .commit, b => b.commitChanges.map fun r => (some r.1, r.2)
  | .commitAt start, b => (b.commitChangesAt start).map fun r => (some r.1, r.2)

def performOn : Call π → Aggregate π σ →
    Except Overflow (Option (List (EventMessage π)) × Aggregate π σ)
  | .track e, a => .ok (none, a.trackChange e)
  | .increment, a => a.incrementVersion.map fun a => (none, a)
  | .clear, a => .ok (none, a.clearChanges)
  | .commit, a => a.commitChanges.map fun r => (some r.1, r.2)
  | .commitAt start, a => (a.commitChangesAt start).map fun r => (some r.1, r.2)

def tracked? : Call π → Option (EventMessage π)
  | .track e => some e
  | _ => none

def commits : Call π → Bool
  | .commit => true
  | .commitAt _ => true
  | _ => false

def clears : Call π → Bool
  | .clear => true
  | _ => false

/-- What becomes of the events that this call finds pending if it has number `j`; `none` if they
stay pending. -/
def fate? (c : Call π) (j : Nat) : Option Fate :=
  if c.commits then some (.handedOver j) else if c.clears then some (.discarded j) else none

/-- The sum that the call puts as the version, if it moves the version. -/
def sum? (b : AggregateBase π) : Call π → Option Nat
  | .increment => some (b.version + 1)
  | .commit => some (b.version + b.changes.length)
  | .commitAt start => some (start + b.changes.length)
  | _ => none

/-- What a call does. It fails by its sum alone. -/
theorem perform_eq_ok {c : Call π} {b b' : AggregateBase π} {a : Option (List (EventMessage π))} :
    c.perform b = .ok (a, b') ↔
      (∀ n, c.sum? b = some n → n < sizeLimit) ∧
        a = (if c.commits then some b.changes else none) ∧
        b' = ⟨b.id, (c.sum? b).getD b.version,
          if c.commits || c.clears then [] else b.changes ++ c.tracked?.toList⟩ := by
  cases c with
  | track e => simp [perform, sum?, commits, clears, tracked?, trackChange, eq_comm]
  | clear => simp [perform, sum?, commits, clears, clearChanges, eq_comm]
  | increment =>
    simp [perform, incrementVersion, map_eq_ok, addSize_eq_ok, sum?, commits, clears, tracked?,
      and_assoc]
  | commit =>
    simp [perform, commitChanges, commitChangesAt, map_eq_ok, addSize_eq_ok, sum?, commits,
      and_assoc]
  | commitAt start =>
    simp [perform, commitChangesAt, map_eq_ok, addSize_eq_ok, sum?, commits, and_assoc]

theorem performOn_eq (c : Call π) (b : AggregateBase π) (state : σ) :
    c.performOn ⟨b, state⟩ = (c.perform b).map fun r => (r.1, ⟨r.2, state⟩) := by
  cases c with
  | track e => rfl
  | clear => rfl
  | increment =>
    simp only [performOn, perform, Aggregate.incrementVersion]
    cases b.incrementVersion <;> rfl
  | commit =>
    simp only [performOn, perform, Aggregate.commitChanges, Aggregate.commitChangesAt,
      Aggregate.version, commitChanges]
    cases b.commitChangesAt b.version <;> rfl
  | commitAt start =>
    simp only [performOn, perform, Aggregate.commitChangesAt]
    cases b.commitChangesAt start <;> rfl

theorem call_of_fate? {c : Call π} {j : Nat} {f : Fate} (h : c.fate? j = some f) : f.call = j := by
  unfold fate? at h
  split at h
  · cases h
    rfl
  · split at h <;> cases h
    rfl

/-- A call hands over what is pending, discards it, or leaves it pending. -/
theorem fate?_cases (c : Call π) (j : Nat) :
    (c.commits = true ∧ c.clears = false ∧ c.tracked? = none ∧
      c.fate? j = some (.handedOver j)) ∨
    (c.commits = false ∧ c.clears = true ∧ c.tracked? = none ∧ c.fate? j = some (.discarded j)) ∨
    (c.commits = false ∧ c.clears = false ∧ c.fate? j = none) := by
  cases c <;> simp [commits, clears, tracked?, fate?]

end Call

/-- The fate of the event that call number `i` tracks: what the first call behind it does that
empties the pending changes; `none` while the event is pending. -/
def fate (calls : List (Call π)) (i : Nat) : Option Fate :=
  (calls.zipIdx.drop (i + 1)).findSome? fun p => p.1.fate? p.2

def trackedWith (p : Option Fate → Bool) (calls : List (Call π)) : List (EventMessage π) :=
  (calls.zipIdx.filter fun q => p (fate calls q.2)).filterMap fun q => q.1.tracked?

section Fates

variable (calls : List (Call π)) (c : Call π)

theorem fate_concat {i : Nat} (hi : i < calls.length) :
    fate (calls ++ [c]) i = (fate calls i).or (c.fate? calls.length) := by
  unfold fate
  rw [List.zipIdx_append, List.drop_append_of_le_length (by simpa using Nat.succ_le_of_lt hi),
    List.findSome?_append]
  simp

theorem fate_last : fate (calls ++ [c]) calls.length = none := by
  unfold fate
  rw [List.drop_of_length_le (by simp)]
  rfl

theorem fate_eq_some {i : Nat} {f : Fate} (h : fate calls i = some f) :
    i < f.call ∧ ∃ d, calls[f.call]? = some d ∧ d.fate? f.call = some f := by
  obtain ⟨q, hq, hf⟩ := List.exists_of_findSome?_eq_some h
  obtain ⟨k, hk⟩ := List.mem_iff_getElem?.1 hq
  rw [List.getElem?_drop, List.getElem?_zipIdx] at hk
  obtain ⟨d, hd, rfl⟩ := Option.map_eq_some_iff.1 hk
  have hcall : f.call = i + 1 + k := (Call.call_of_fate? hf).trans (Nat.zero_add _)
  rw [Nat.zero_add] at hf
  rw [hcall]
  exact ⟨by omega, d, hd, hf⟩

theorem call_lt_length {i : Nat} {f : Fate} (h : fate calls i = some f) :
    f.call < calls.length := by
  obtain ⟨-, d, hd, -⟩ := fate_eq_some calls h
  exact (List.getElem?_eq_some_iff.1 hd).1

theorem trackedWith_congr {p q : Option Fate → Bool}
    (h : ∀ i, p (fate calls i) = q (fate calls i)) : trackedWith p calls = trackedWith q calls := by
  unfold trackedWith
  simp only [h]

/-- One more call settles the fate of what is pending, and what it tracks is pending. -/
theorem trackedWith_concat (p : Option Fate → Bool) :
    trackedWith p (calls ++ [c]) = trackedWith (fun f => p (f.or (c.fate? calls.length))) calls ++
      if p none then c.tracked?.toList else [] := by
  have hbefore : ∀ q ∈ calls.zipIdx,
      p (fate (calls ++ [c]) q.2) = p ((fate calls q.2).or (c.fate? calls.length)) :=
    fun q hq => congrArg p (fate_concat calls c (List.snd_lt_of_mem_zipIdx hq))
  unfold trackedWith
  rw [List.zipIdx_append, List.filter_append, List.filterMap_append, List.filter_congr hbefore]
  congr 1
  simp only [List.zipIdx_singleton, Nat.zero_add, List.filter_cons, fate_last, List.filter_nil]
  cases p none <;> cases h : c.tracked? <;> simp [h]

theorem trackedWith_false : trackedWith (fun _ => false) calls = [] := by
  simp [trackedWith]

theorem trackedWith_none_concat :
    trackedWith (· = none) (calls ++ [c]) =
      if c.commits || c.clears then [] else trackedWith (· = none) calls ++ c.tracked?.toList := by
  rw [trackedWith_concat]
  rcases c.fate?_cases calls.length with
    ⟨hc, -, ht, hf⟩ | ⟨hc, hl, ht, hf⟩ | ⟨hc, hl, hf⟩
  · simp [hc, ht, hf, trackedWith_false]
  · simp [hc, hl, ht, hf, trackedWith_false]
  · simp [hc, hl, hf]

theorem trackedWith_isHandedOver_concat :
    trackedWith Fate.isHandedOver (calls ++ [c]) =
      if c.commits then trackedWith (fun f => ! Fate.isDiscarded f) calls
      else trackedWith Fate.isHandedOver calls := by
  rw [trackedWith_concat]
  rcases c.fate?_cases calls.length with ⟨hc, -, -, hf⟩ | ⟨hc, -, -, hf⟩ | ⟨hc, -, hf⟩ <;>
    simp [hc, hf]

theorem trackedWith_not_isDiscarded_concat :
    trackedWith (fun f => ! Fate.isDiscarded f) (calls ++ [c]) =
      if c.clears then trackedWith Fate.isHandedOver calls
      else trackedWith (fun f => ! Fate.isDiscarded f) calls ++ c.tracked?.toList := by
  rw [trackedWith_concat]
  rcases c.fate?_cases calls.length with ⟨-, hl, -, hf⟩ | ⟨-, hl, ht, hf⟩ | ⟨-, hl, hf⟩
  · simp [hl, hf]
  · simp [hl, ht, hf]
  · simp [hl, hf]

theorem trackedWith_some_concat {f : Fate} (hf : f.call < calls.length) :
    trackedWith (· = some f) (calls ++ [c]) = trackedWith (· = some f) calls := by
  have hother : c.fate? calls.length ≠ some f :=
    fun h => absurd (Call.call_of_fate? h) (Nat.ne_of_lt hf)
  rw [trackedWith_concat]
  simp only [reduceCtorEq, decide_false, Bool.false_eq_true, if_false, List.append_nil]
  refine trackedWith_congr calls fun i => ?_
  simp [Option.or_eq_some_iff, hother]

/-- A call that empties the pending changes settles the fate of them all, and of no others. -/
theorem trackedWith_fate? {f : Fate} (hf : c.fate? calls.length = some f) :
    trackedWith (· = some f) (calls ++ [c]) = trackedWith (· = none) calls := by
  rw [trackedWith_concat, hf]
  simp only [reduceCtorEq, decide_false, Bool.false_eq_true, if_false, List.append_nil]
  refine trackedWith_congr calls fun i => ?_
  -- No fate of before names this call.
  have hnew : fate calls i ≠ some f := fun h => by
    have := call_lt_length calls h
    rw [Call.call_of_fate? hf] at this
    exact Nat.lt_irrefl _ this
  cases hi : fate calls i with
  | none => simp
  | some g => simpa [hi] using hnew

end Fates

structure Step (π : Type) where
  found : AggregateBase π
  call : Call π
  answer : Option (List (EventMessage π))
  left : AggregateBase π

def run (id : String) (calls : List (Call π)) :
    Except Overflow (List (Step π) × AggregateBase π) :=
  calls.foldlM (fun p c => (c.perform p.2).map fun r => (p.1 ++ [⟨p.2, c, r.1, r.2⟩], r.2))
    ([], .new id)

/-- No addition overflows: the sum of each call is a size, on the base that the calls in front of it
leave. -/
def Fits (id : String) (calls : List (Call π)) : Prop :=
  ∀ i c steps b, calls[i]? = some c → run id (calls.take i) = .ok (steps, b) →
    ∀ n, c.sum? b = some n → n < sizeLimit

def handedOver (steps : List (Step π)) : List (EventMessage π) :=
  steps.flatMap fun s => s.answer.getD []

def discarded (steps : List (Step π)) : List (EventMessage π) :=
  steps.flatMap fun s => if s.call.clears then s.found.changes else []

theorem handedOver_concat (steps : List (Step π)) (s : Step π) :
    handedOver (steps ++ [s]) = handedOver steps ++ s.answer.getD [] := by
  simp [handedOver]

theorem discarded_concat (steps : List (Step π)) (s : Step π) :
    discarded (steps ++ [s]) =
      discarded steps ++ if s.call.clears then s.found.changes else [] := by
  simp [discarded]

section Running

variable {id : String} {calls : List (Call π)} {c : Call π} {steps : List (Step π)}
variable {b b' : AggregateBase π}

theorem run_concat_eq_ok :
    run id (calls ++ [c]) = .ok (steps, b') ↔ ∃ before b a, run id calls = .ok (before, b) ∧
      c.perform b = .ok (a, b') ∧ steps = before ++ [⟨b, c, a, b'⟩] := by
  have hrun : run id (calls ++ [c]) = run id calls >>= fun p =>
      (c.perform p.2).map fun r => (p.1 ++ [⟨p.2, c, r.1, r.2⟩], r.2) := by
    simp [run]
  rw [hrun]
  cases run id calls with
  | error o => exact ⟨fun h => (nomatch h), fun ⟨_, _, _, h, _⟩ => (nomatch h)⟩
  | ok p =>
    obtain ⟨before, b⟩ := p
    refine map_eq_ok.trans ⟨?_, ?_⟩
    · rintro ⟨⟨a, b'⟩, hc, h⟩
      cases h
      exact ⟨before, b, a, rfl, hc, rfl⟩
    · rintro ⟨before, b, a, h, hc, rfl⟩
      cases h
      exact ⟨(a, b'), hc, rfl⟩

theorem fits_concat : Fits id (calls ++ [c]) ↔ Fits id calls ∧
    ∀ steps b, run id calls = .ok (steps, b) → ∀ n, c.sum? b = some n → n < sizeLimit := by
  constructor
  · intro h
    refine ⟨fun i d steps b hd hrun => ?_, fun steps b hrun => ?_⟩
    · have hi : i < calls.length := (List.getElem?_eq_some_iff.1 hd).1
      refine h i d steps b ?_ ?_
      · rwa [List.getElem?_append_left hi]
      · rwa [List.take_append_of_le_length (Nat.le_of_lt hi)]
    · exact h calls.length c steps b (by simp) (by simpa using hrun)
  · rintro ⟨hfits, hlast⟩ i d steps b hd hrun
    rcases getElem?_concat_eq_some hd with ⟨hi, hd⟩ | ⟨rfl, rfl⟩
    · rw [List.take_append_of_le_length (Nat.le_of_lt hi)] at hrun
      exact hfits i d steps b hd hrun
    · exact hlast steps b (by simpa using hrun)

/-- Calls on a new base fail by an addition that overflows, and by nothing else. -/
theorem exists_run_iff : (∃ steps b, run id calls = .ok (steps, b)) ↔ Fits id calls := by
  induction calls using List.reverseRecOn with
  | nil => exact ⟨fun _ i c _ _ h => (nomatch h), fun _ => ⟨_, _, rfl⟩⟩
  | append_singleton calls c ih =>
    rw [fits_concat, ← ih]
    constructor
    · rintro ⟨steps, b', h⟩
      obtain ⟨before, b, a, hrun, hc, -⟩ := run_concat_eq_ok.1 h
      refine ⟨⟨before, b, hrun⟩, fun steps₁ b₁ hrun₁ => ?_⟩
      cases hrun.symm.trans hrun₁
      exact (Call.perform_eq_ok.1 hc).1
    · rintro ⟨⟨steps, b, hrun⟩, hlast⟩
      have hc := Call.perform_eq_ok.2 ⟨hlast steps b hrun, rfl, rfl⟩
      exact ⟨_, _, run_concat_eq_ok.2 ⟨steps, b, _, hrun, hc, rfl⟩⟩

structure Accounted (id : String) (calls : List (Call π)) (steps : List (Step π))
    (b : AggregateBase π) : Prop where
  calls_eq : steps.map Step.call = calls
  linked : .new id :: steps.map Step.left = steps.map Step.found ++ [b]
  performed : ∀ s ∈ steps, s.call.perform s.found = .ok (s.answer, s.left)
  ids : ∀ x ∈ steps.map Step.found ++ [b], x.id = id
  pending : b.changes = trackedWith (· = none) calls
  ended : ∀ (j : Nat) s f, steps[j]? = some s → s.call.fate? j = some f →
    s.found.changes = trackedWith (· = some f) calls
  once : (calls.filterMap Call.tracked?).Perm (handedOver steps ++ discarded steps ++ b.changes)
  handedOver_eq : handedOver steps = trackedWith Fate.isHandedOver calls
  in_order : handedOver steps ++ b.changes = trackedWith (fun f => ! Fate.isDiscarded f) calls

theorem accounted_nil : Accounted id ([] : List (Call π)) [] (.new id) where
  calls_eq := rfl
  linked := rfl
  performed := fun _ h => nomatch h
  ids := fun _ h => congrArg AggregateBase.id (List.mem_singleton.1 h)
  pending := rfl
  ended := fun _ _ _ h => nomatch h
  once := .refl []
  handedOver_eq := rfl
  in_order := rfl

theorem Accounted.length_eq (h : Accounted id calls steps b) : steps.length = calls.length := by
  rw [← h.calls_eq, List.length_map]

theorem Accounted.concat (h : Accounted id calls steps b) {a : Option (List (EventMessage π))}
    (hc : c.perform b = .ok (a, b')) :
    Accounted id (calls ++ [c]) (steps ++ [⟨b, c, a, b'⟩]) b' where
  calls_eq := by simp [h.calls_eq]
  linked := by
    rw [List.map_append, List.map_append, ← List.cons_append, h.linked]
    rfl
  performed := fun s hs => by
    rcases List.mem_append.1 hs with hs | hs
    · exact h.performed s hs
    · rw [List.mem_singleton.1 hs]
      exact hc
  ids := fun x hx => by
    have hb : b.id = id := h.ids b (by simp)
    rw [List.map_append, List.mem_append] at hx
    rcases hx with hx | hx
    · exact h.ids x (by simpa using hx)
    · rw [List.mem_singleton.1 hx, (Call.perform_eq_ok.1 hc).2.2]
      exact hb
  pending := by
    rw [trackedWith_none_concat, ← h.pending, (Call.perform_eq_ok.1 hc).2.2]
  ended := fun j s f hs hf => by
    rcases getElem?_concat_eq_some hs with ⟨hj, hs⟩ | ⟨rfl, rfl⟩
    · rw [h.length_eq, ← Call.call_of_fate? hf] at hj
      rw [trackedWith_some_concat calls c hj]
      exact h.ended j s f hs hf
    · rw [h.length_eq] at hf
      rw [trackedWith_fate? calls c hf, ← h.pending]
  once := by
    obtain ⟨-, rfl, rfl⟩ := Call.perform_eq_ok.1 hc
    have htracked : (calls ++ [c]).filterMap Call.tracked? =
        calls.filterMap Call.tracked? ++ c.tracked?.toList := by
      cases ht : c.tracked? <;> simp [ht]
    rw [htracked, handedOver_concat, discarded_concat]
    rcases c.fate?_cases calls.length with
      ⟨hc, hl, ht, -⟩ | ⟨hc, hl, ht, -⟩ | ⟨hc, hl, -⟩
    -- What was pending moves in front of what was discarded.
    · have hmoved : (discarded steps ++ b.changes).Perm (b.changes ++ discarded steps) :=
        List.perm_append_comm
      simpa [hc, hl, ht] using h.once.trans (by simpa using hmoved.append_left (handedOver steps))
    · simpa [hc, hl, ht] using h.once
    · simpa [hc, hl] using h.once.append_right c.tracked?.toList
  handedOver_eq := by
    obtain ⟨-, rfl, rfl⟩ := Call.perform_eq_ok.1 hc
    rw [handedOver_concat, trackedWith_isHandedOver_concat, ← h.in_order, ← h.handedOver_eq]
    cases c.commits <;> simp
  in_order := by
    obtain ⟨-, rfl, rfl⟩ := Call.perform_eq_ok.1 hc
    rw [handedOver_concat, trackedWith_not_isDiscarded_concat, ← h.in_order, ← h.handedOver_eq]
    rcases c.fate?_cases calls.length with
      ⟨hc, hl, ht, -⟩ | ⟨hc, hl, ht, -⟩ | ⟨hc, hl, -⟩
    · simp [hc, hl, ht]
    · simp [hc, hl]
    · simp [hc, hl]

theorem accounted_of_run (h : run id calls = .ok (steps, b)) : Accounted id calls steps b := by
  induction calls using List.reverseRecOn generalizing steps b with
  | nil =>
    cases h
    exact accounted_nil
  | append_singleton calls c ih =>
    obtain ⟨before, b₀, a, hrun, hc, rfl⟩ := run_concat_eq_ok.1 h
    exact (ih hrun).concat hc

theorem Accounted.step_of_fate (h : Accounted id calls steps b) {i : Nat} {f : Fate}
    (hf : fate calls i = some f) :
    i < f.call ∧ ∃ s, steps[f.call]? = some s ∧ s.call.fate? f.call = some f := by
  obtain ⟨hlt, d, hd, hdf⟩ := fate_eq_some calls hf
  rw [← h.calls_eq, List.getElem?_map] at hd
  obtain ⟨s, hs, rfl⟩ := Option.map_eq_some_iff.1 hd
  exact ⟨hlt, s, hs, hdf⟩

theorem Accounted.answer_eq (h : Accounted id calls steps b) {j : Nat} {s : Step π}
    (hs : steps[j]? = some s) :
    s.answer =
      if s.call.commits then some (trackedWith (· = some (.handedOver j)) calls) else none := by
  rw [(Call.perform_eq_ok.1 (h.performed s (List.mem_of_getElem? hs))).2.1]
  rcases s.call.fate?_cases j with ⟨hc, -, -, hf⟩ | ⟨hc, -⟩ | ⟨hc, -⟩
  · rw [hc, if_pos rfl, if_pos rfl, h.ended j s _ hs hf]
  · simp [hc]
  · simp [hc]

theorem Accounted.found_of_clears (h : Accounted id calls steps b) {j : Nat} {s : Step π}
    (hs : steps[j]? = some s) (hl : s.call.clears) :
    s.found.changes = trackedWith (· = some (.discarded j)) calls := by
  rcases s.call.fate?_cases j with ⟨-, hl', -⟩ | ⟨-, -, -, hf⟩ | ⟨-, hl', -⟩
  · exact absurd (hl.symm.trans hl') nofun
  · exact h.ended j s _ hs hf
  · exact absurd (hl.symm.trans hl') nofun

/-- Calls on a new base, none of whose sums overflows, all return. Each tracked event is once in
what the commits hand over, what the clears discard and what is pending in the end, at the place
that its fate names. What is handed over and what is pending are the tracked events in their order
less those discarded. The id stays, the version becomes the sum of each call that has one and else
stays, and the current version counts in what is pending. An aggregate does the same and keeps its
state. -/
theorem none_lost_or_doubled (id : String) {calls : List (Call π)} (h : Fits id calls) :
    ∃ steps b, run id calls = .ok (steps, b) ∧ steps.map Step.call = calls ∧
      .new id :: steps.map Step.left = steps.map Step.found ++ [b] ∧
      (calls.filterMap Call.tracked?).Perm (handedOver steps ++ discarded steps ++ b.changes) ∧
      (∀ (j : Nat) s, steps[j]? = some s →
        (s.answer =
          if s.call.commits then some (trackedWith (· = some (.handedOver j)) calls) else none) ∧
        (s.call.clears → s.found.changes = trackedWith (· = some (.discarded j)) calls)) ∧
      b.changes = trackedWith (· = none) calls ∧
      (∀ i f, fate calls i = some f →
        i < f.call ∧ ∃ s, steps[f.call]? = some s ∧ s.call.fate? f.call = some f) ∧
      handedOver steps ++ b.changes = trackedWith (fun f => ! Fate.isDiscarded f) calls ∧
      (∀ s ∈ steps, s.left.version = (s.call.sum? s.found).getD s.found.version) ∧
      (∀ x ∈ steps.map Step.found ++ [b], x.id = id ∧
        ∀ (state : σ) v, Aggregate.currentVersion ⟨x, state⟩ = .ok v ↔
          x.version + x.changes.length < sizeLimit ∧ v = x.version + x.changes.length) ∧
      ∀ s ∈ steps, ∀ state : σ,
        s.call.performOn ⟨s.found, state⟩ = .ok (s.answer, ⟨s.left, state⟩) := by
  obtain ⟨steps, b, hrun⟩ := exists_run_iff.2 h
  have hacc : Accounted id calls steps b := accounted_of_run hrun
  refine ⟨steps, b, hrun, hacc.calls_eq, hacc.linked, hacc.once,
    fun j s hs => ⟨hacc.answer_eq hs, hacc.found_of_clears hs⟩, hacc.pending,
    fun _ _ hf => hacc.step_of_fate hf, hacc.in_order, fun s hs => ?_,
    fun x hx => ⟨hacc.ids x hx, fun _ _ => addSize_eq_ok⟩, fun s hs state => ?_⟩
  · rw [(Call.perform_eq_ok.1 (hacc.performed s hs)).2.2]
  · rw [Call.performOn_eq, hacc.performed s hs]
    rfl

/-- The same check-in is handed over twice, once by each commit; the renaming is discarded. -/
theorem none_lost_or_doubled_bolts :
    let event := fun e : Inventory.Event => EventMessage.new "bolts" e
    let calls := [.track (event (.created "bolt")), .track (event (.checkedIn 3)), .commit,
      .track (event (.renamed "nut")), .clear, .increment, .track (event (.checkedIn 3)),
      .commitAt 7, .track (event (.removed 1))]
    Fits "bolts" calls ∧ ∃ steps b, run "bolts" calls = .ok (steps, b) ∧ b.id = "bolts" ∧
      b.changes = [event (.removed 1)] ∧
      handedOver steps ++ b.changes = [event (.created "bolt"), event (.checkedIn 3),
        event (.checkedIn 3), event (.removed 1)] := by
  intro event calls
  have hfits : Fits "bolts" calls := exists_run_iff.1 ⟨_, _, rfl⟩
  obtain ⟨steps, b, hrun, -, -, -, -, hpending, -, horder, -, hbases, -⟩ :=
    none_lost_or_doubled (σ := Unit) "bolts" hfits
  exact ⟨hfits, steps, b, hrun, (hbases b (by simp)).1, hpending, horder⟩

end Running

end AggregateBase

end EventSourcing
