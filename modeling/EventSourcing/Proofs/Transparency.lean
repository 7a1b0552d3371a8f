import EventSourcing.Store.Recording
import Mathlib.Data.List.Basic
import Mathlib.Data.List.Induction

/-!
A recording store is the store inside it, with a record beside it. Whatever is called, queries are
answered as the inner store alone would answer them, and leave it as it would then be. The record is
said apart from how it is kept: the events of those saves that were made while the last switch stood
at on, less what a later reset did away with.
-/

namespace EventSourcing

variable {π κ α : Type}

namespace EventStore

inductive Query (π : Type) where
  | save (stream : String) (events : List (EventMessage π)) (expected : Option Nat)
    (headers : Headers)
  | load (stream : String)

inductive Reply (κ : Type) where
  | saved (out : DomainOutcome κ Unit)
  | loaded (out : DomainOutcome κ (List Record))

def ask (store : EventStore π κ α) : Query π → α → Reply κ × α
  | .save stream events expected headers, s =>
    let (out, s) := store.save stream events expected headers s
    (.saved out, s)
  | .load stream, s =>
    let (out, s) := store.load stream s
    (.loaded out, s)

def askAll (store : EventStore π κ α) (queries : List (Query π)) (s : α) : List (Reply κ) × α :=
  queries.foldl (fun p q => (p.1 ++ [(store.ask q p.2).1], (store.ask q p.2).2)) ([], s)

theorem askAll_concat (store : EventStore π κ α) (queries : List (Query π)) (q : Query π) (s : α) :
    store.askAll (queries ++ [q]) s =
      ((store.askAll queries s).1 ++ [(store.ask q (store.askAll queries s).2).1],
        (store.ask q (store.askAll queries s).2).2) := by
  simp [askAll]

end EventStore

namespace Recording

inductive Call (π : Type) where
  | query (q : EventStore.Query π)
  | start
  | stop
  | recorded
  | reset

inductive Answer (π κ : Type) where
  | reply (r : EventStore.Reply κ)
  | events (es : List (EventMessage π))
  | done

def perform (inner : EventStore π κ α) : Call π → Recording π α → Answer π κ × Recording π α
  | .query q, r =>
    let (reply, r) := (store inner).ask q r
    (.reply reply, r)
  | .start, r => (.done, r.start)
  | .stop, r => (.done, r.stop)
  | .recorded, r => (.events r.events, r)
  | .reset, r => (.done, r.reset)

def run (inner : EventStore π κ α) (calls : List (Call π)) (s : α) :
    List (Answer π κ) × Recording π α :=
  calls.foldl (fun p c => (p.1 ++ [(perform inner c p.2).1], (perform inner c p.2).2)) ([], .new s)

namespace Call

def query? : Call π → Option (EventStore.Query π)
  | .query q => some q
  | _ => none

def switch? : Call π → Option Bool
  | .start => some true
  | .stop => some false
  | _ => none

def isReset : Call π → Bool
  | .reset => true
  | _ => false

def events : Call π → List (EventMessage π)
  | .query (.save _ events _ _) => events
  | _ => []

end Call

/-- Where the last switch stands; it is off to begin with. -/
def switchedOn (calls : List (Call π)) : Bool := (calls.filterMap Call.switch?).getLast?.getD false

/-- What of call number `i` is on record: the events it asks to save, if it found the switch on and
there was no reset since. -/
def notedOf (calls : List (Call π)) (i : Nat) : List (EventMessage π) :=
  if switchedOn (calls.take i) ∧ (calls.drop i).all fun c => ! c.isReset then
    (calls[i]?.map Call.events).getD []
  else []

def noted (calls : List (Call π)) : List (EventMessage π) :=
  (List.range calls.length).flatMap (notedOf calls)

theorem switchedOn_concat (calls : List (Call π)) (c : Call π) :
    switchedOn (calls ++ [c]) = c.switch?.getD (switchedOn calls) := by
  unfold switchedOn
  cases c <;> simp [Call.switch?]

/-- A reset takes off the record what was on it, other calls leave it there. -/
theorem notedOf_concat {calls : List (Call π)} {i : Nat} (hi : i < calls.length) (c : Call π) :
    notedOf (calls ++ [c]) i = if c.isReset then [] else notedOf calls i := by
  unfold notedOf
  rw [List.take_append_of_le_length (Nat.le_of_lt hi),
    List.drop_append_of_le_length (Nat.le_of_lt hi), List.getElem?_append_left hi]
  cases hr : c.isReset <;> simp [hr]

theorem noted_concat (calls : List (Call π)) (c : Call π) :
    noted (calls ++ [c]) = if c.isReset then [] else
      noted calls ++ if switchedOn calls then c.events else [] := by
  have hbefore : ∀ i ∈ List.range calls.length, notedOf (calls ++ [c]) i =
      if c.isReset then [] else notedOf calls i :=
    fun i hi => notedOf_concat (List.mem_range.1 hi) c
  have hlast : notedOf (calls ++ [c]) calls.length =
      if c.isReset then [] else if switchedOn calls then c.events else [] := by
    unfold notedOf
    cases hr : c.isReset <;> simp [hr]
  unfold noted
  rw [List.length_append, List.length_singleton, List.range_succ, List.flatMap_append,
    List.flatMap_singleton, hlast, List.flatMap_congr hbefore]
  cases c.isReset <;> simp

/-- The first save gives way to the reset, the third finds recording off. -/
example (a b c d : EventMessage π) :
    let save := fun e : EventMessage π => Call.query (.save "bolts" [e] none .empty)
    noted [.start, save a, .reset, save b, .stop, save c, .start, .start, save d] = [b, d] := by
  rfl

section Running

variable (inner : EventStore π κ α) (s : α)

theorem run_concat (calls : List (Call π)) (c : Call π) :
    run inner (calls ++ [c]) s =
      ((run inner calls s).1 ++ [(perform inner c (run inner calls s).2).1],
        (perform inner c (run inner calls s).2).2) := by
  simp [run]

/-- A query is answered by the inner store and its events are noted if recording is on. -/
theorem perform_query (q : EventStore.Query π) (r : Recording π α) :
    perform inner (.query q) r = (.reply (inner.ask q r.inner).1,
      ⟨(inner.ask q r.inner).2, r.active,
        r.events ++ if r.active then (Call.query q).events else []⟩) := by
  obtain ⟨state, active, events⟩ := r
  cases q <;> cases active <;>
    simp [perform, EventStore.ask, store, note, Call.events]

theorem run_state (calls : List (Call π)) :
    (run inner calls s).2 =
      ⟨(inner.askAll (calls.filterMap Call.query?) s).2, switchedOn calls, noted calls⟩ := by
  induction calls using List.reverseRecOn with
  | nil => rfl
  | append_singleton calls c ih =>
    rw [run_concat, ih, switchedOn_concat, noted_concat, List.filterMap_append, List.filterMap_cons,
      List.filterMap_nil]
    cases c with
    | query q =>
      rw [perform_query]
      simp [Call.query?, Call.switch?, Call.isReset, EventStore.askAll_concat]
    | start => simp [perform, start, Call.query?, Call.switch?, Call.isReset, Call.events]
    | stop => simp [perform, stop, Call.query?, Call.switch?, Call.isReset, Call.events]
    | recorded => simp [perform, Call.query?, Call.switch?, Call.isReset, Call.events]
    | reset => simp [perform, reset, Call.query?, Call.switch?, Call.isReset]

theorem length_answers (calls : List (Call π)) : (run inner calls s).1.length = calls.length := by
  induction calls using List.reverseRecOn with
  | nil => rfl
  | append_singleton calls c ih => simp [run_concat, ih]

theorem getElem?_answers {calls : List (Call π)} {i : Nat} {c : Call π} (h : calls[i]? = some c) :
    (run inner calls s).1[i]? = some (perform inner c (run inner (calls.take i) s).2).1 := by
  induction calls using List.reverseRecOn with
  | nil => nomatch h
  | append_singleton calls d ih =>
    rw [run_concat]
    by_cases hi : i < calls.length
    · rw [List.getElem?_append_left hi] at h
      rw [List.getElem?_append_left (by rwa [length_answers]), ih h,
        List.take_append_of_le_length (Nat.le_of_lt hi)]
    · obtain rfl : i = calls.length := by
        have := (List.getElem?_eq_some_iff.1 h).1
        simp at this
        omega
      obtain rfl : d = c := by simpa using h
      simp [← length_answers inner s calls]

/-- Whatever is called of a recording store: the inner store is left as its own queries leave it,
each query is answered as the inner store answers it after the queries before it, and who asks for
the record is given the events noted so far. -/
theorem transparent_and_exact (calls : List (Call π)) :
    let after := run inner calls s
    let bare := fun i : Nat => (inner.askAll ((calls.take i).filterMap Call.query?) s).2
    after.2.inner = (inner.askAll (calls.filterMap Call.query?) s).2 ∧
      after.2.events = noted calls ∧
      (∀ (i : Nat) q, calls[i]? = some (.query q) →
        after.1[i]? = some (.reply (inner.ask q (bare i)).1)) ∧
      ∀ i : Nat, calls[i]? = some .recorded →
        after.1[i]? = some (.events (noted (calls.take i))) := by
  intro after bare
  have hstate := run_state inner s
  refine ⟨by rw [hstate], by rw [hstate], fun i q hq => ?_, fun i hi => ?_⟩
  · rw [getElem?_answers inner s hq, perform_query, hstate]
  · rw [getElem?_answers inner s hi, hstate]
    rfl

end Running

end Recording

end EventSourcing
