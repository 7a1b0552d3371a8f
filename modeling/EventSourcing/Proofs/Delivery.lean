import EventSourcing.Bus
import EventSourcing.Proofs.Ownership

/-!
Who is called for an event. Whatever registrations are tried, no handler stands twice in one of the
lists of a bus, so an event calls a handler once for its type, once as a local and once as a global
handler: those of its type in the order they subscribed, then the local ones, then the global ones,
these two sets in any order. The first call that fails is the last one, and its error is the answer.
-/

namespace EventSourcing

variable {π κ ω ε ι η : Type}

section InTurn

variable {f : ι → Action ω ε Unit} {xs : List ι} {w w' : ω}

def inTurn (f : ι → Action ω ε Unit) : List ι → Action ω ε Unit
  | [], w => (.ok (), w)
  | x :: xs, w =>
    match f x w with
    | (.ok (), w) => inTurn f xs w
    | (.error fault, w) => (.error fault, w)

inductive Through (f : ι → Action ω ε Unit) : List ι → ω → ω → Prop
  | nil {w : ω} : Through f [] w w
  | cons {x : ι} {xs : List ι} {w w' w'' : ω} :
    f x w = (.ok (), w') → Through f xs w' w'' → Through f (x :: xs) w w''

/-- All had their turn, or all up to the first that failed. -/
inductive EndsInTurn (f : ι → Action ω ε Unit) (xs : List ι) (w : ω) : Outcome ε Unit × ω → Prop
  | all {w' : ω} : Through f xs w w' → EndsInTurn f xs w (.ok (), w')
  | failed {before after : List ι} {x : ι} {w' w'' : ω} {fault : Fault ε} :
    xs = before ++ x :: after → Through f before w w' → f x w' = (.error fault, w'') →
    EndsInTurn f xs w (.error fault, w'')

theorem endsInTurn (f : ι → Action ω ε Unit) (xs : List ι) (w : ω) :
    EndsInTurn f xs w (inTurn f xs w) := by
  induction xs generalizing w with
  | nil => exact .all .nil
  | cons x xs ih =>
    rcases hx : f x w with ⟨_ | _, w'⟩ <;> simp only [inTurn, hx]
    · exact .failed rfl .nil hx
    · have hrest := ih w'
      generalize inTurn f xs w' = ends at hrest
      cases hrest with
      | all hxs => exact .all (.cons hx hxs)
      | failed he hbefore hfail => exact .failed (congrArg (x :: ·) he) (.cons hx hbefore) hfail

theorem inTurn_append (h : Through f xs w w') (ys : List ι) :
    inTurn f (xs ++ ys) w = inTurn f ys w' := by
  induction h with
  | nil => rfl
  | cons hx _ ih => simp only [List.cons_append, inTurn, hx, ih]

theorem inTurn_of_forall_ok (h : ∀ x ∈ xs, ∀ w, (f x w).1 = .ok ()) :
    (inTurn f xs w).1 = .ok () := by
  induction xs generalizing w with
  | nil => rfl
  | cons x xs ih =>
    obtain ⟨hx, hxs⟩ := List.forall_mem_cons.1 h
    rcases hfx : f x w with ⟨_ | _, w'⟩ <;> have hok := hx w <;> rw [hfx] at hok
    · nomatch hok
    · simp only [inTurn, hfx]
      exact ih hxs

end InTurn

namespace Bus

section Registering

inductive Entry (η : Type) where
  | typed (handler : η) (eventTypes : List String)
  | locally (handler : η)
  | globally (handler : η)

structure Distinct (b : Bus η) : Prop where
  typed : ∀ t, (b.typed t).Nodup
  locals : b.locals.Nodup
  globals : b.globals.Nodup

section Subscribing

variable {b : Bus η} {h : η} {t : String} {ts : List String}

theorem contains_subscriptions [DecidableEq η] :
    b.subscriptions.contains (t, h) = true ↔ h ∈ b.typed t := by
  unfold typed
  simp

theorem typed_subscribe (h : η) (b : Bus η) (u t : String) :
    (b.subscribe h u).typed t = if u = t then b.typed t ++ [h] else b.typed t := by
  unfold typed subscribe
  by_cases hu : u = t <;> simp [hu]

theorem typed_foldl_subscribe (hts : ts.Nodup) (h : η) (b : Bus η) (t : String) :
    (ts.foldl (subscribe h) b).typed t = if t ∈ ts then b.typed t ++ [h] else b.typed t := by
  induction ts generalizing b with
  | nil => rfl
  | cons u rest ih =>
    obtain ⟨hu, hrest⟩ := List.nodup_cons.1 hts
    rw [List.foldl_cons, ih hrest, typed_subscribe]
    by_cases hut : u = t
    · subst hut
      rw [if_neg hu, if_pos rfl, if_pos (List.mem_cons_self ..)]
    · simp only [List.mem_cons, Ne.symm hut, if_neg hut, false_or]

theorem locals_foldl_subscribe (ts : List String) (h : η) (b : Bus η) :
    (ts.foldl (subscribe h) b).locals = b.locals := by
  induction ts generalizing b with
  | nil => rfl
  | cons u rest ih => exact ih (b.subscribe h u)

theorem globals_foldl_subscribe (ts : List String) (h : η) (b : Bus η) :
    (ts.foldl (subscribe h) b).globals = b.globals := by
  induction ts generalizing b with
  | nil => rfl
  | cons u rest ih => exact ih (b.subscribe h u)

theorem addHandler_cases [DecidableEq η] (h : η) (ts : List String) (b : Bus η) :
    ((ts.Nodup ∧ ∀ t ∈ ts, h ∉ b.typed t) ∧
      addHandler (κ := κ) h ts b = (.ok (), ts.foldl (subscribe h) b)) ∨
    (¬ (ts.Nodup ∧ ∀ t ∈ ts, h ∉ b.typed t) ∧
      ∃ t, addHandler (κ := κ) h ts b = (.fail (.alreadyRegistered "event bus" t), b)) := by
  have hnone : Registry.firstRefused (fun t => b.subscriptions.contains (t, h)) [] ts = none ↔
      ts.Nodup ∧ ∀ t ∈ ts, h ∉ b.typed t := by
    simp only [Registry.firstRefused_eq_none, List.not_mem_nil, not_false_eq_true, true_and,
      ← Bool.not_eq_true, contains_subscriptions]
  rw [← hnone]
  unfold addHandler
  cases Registry.firstRefused (fun t => b.subscriptions.contains (t, h)) [] ts with
  | none => exact Or.inl ⟨rfl, rfl⟩
  | some t => exact Or.inr ⟨nofun, t, rfl⟩

end Subscribing

theorem insertByName_perm [EventHandler η] (h : η) (handlers : List η) :
    (insertByName h handlers).Perm (h :: handlers) := by
  induction handlers with
  | nil => exact List.Perm.refl _
  | cons h' rest ih =>
    unfold insertByName
    split
    · exact List.Perm.refl _
    · exact (ih.cons h').trans (List.Perm.swap h h' rest)

variable [DecidableEq η] [EventHandler η]

def tryEntry (κ : Type) : Entry η → Action (Bus η) (DomainError κ) Unit
  | .typed handler eventTypes => addHandler handler eventTypes
  | .locally handler => addLocal handler
  | .globally handler => addGlobal handler

/-- The bus is the one that the registration leaves, whether it is accepted or not. -/
def enter (κ : Type) (b : Bus η) (entry : Entry η) : Bus η := (tryEntry κ entry b).2

def enterAll (κ : Type) (entries : List (Entry η)) : Bus η := entries.foldl (enter κ) .empty

/-- When registrations are accepted and what they change. The order of local handlers and that of
global ones is nobody's business. -/
structure Registers (κ : Type) (b : Bus η) : Prop where
  typed_iff : ∀ h ts, (tryEntry κ (.typed h ts) b).1 = .ok () ↔ ts.Nodup ∧ ∀ t ∈ ts, h ∉ b.typed t
  typed : ∀ h ts b', tryEntry κ (.typed h ts) b = (.ok (), b') →
    (∀ t, b'.typed t = if t ∈ ts then b.typed t ++ [h] else b.typed t) ∧
      b'.locals = b.locals ∧ b'.globals = b.globals
  locally_iff : ∀ h, (tryEntry κ (.locally h) b).1 = .ok () ↔ h ∉ b.locals
  locally : ∀ h b', tryEntry κ (.locally h) b = (.ok (), b') →
    b'.locals.Perm (h :: b.locals) ∧ (∀ t, b'.typed t = b.typed t) ∧ b'.globals = b.globals
  globally_iff : ∀ h, (tryEntry κ (.globally h) b).1 = .ok () ↔ h ∉ b.globals
  globally : ∀ h b', tryEntry κ (.globally h) b = (.ok (), b') →
    b'.globals.Perm (h :: b.globals) ∧ (∀ t, b'.typed t = b.typed t) ∧ b'.locals = b.locals
  refused : ∀ entry fault b', tryEntry κ entry b = (.error fault, b') →
    b' = b ∧ ∃ registry tag, fault = .error (.alreadyRegistered registry tag)

theorem addCatchAll_cases (registry : String) (h : η) (handlers : List η) :
    (h ∉ handlers ∧ addCatchAll (κ := κ) registry h handlers = (.ok (), insertByName h handlers)) ∨
    (h ∈ handlers ∧ addCatchAll (κ := κ) registry h handlers =
      (.fail (.alreadyRegistered registry (EventHandler.name h)), handlers)) := by
  unfold addCatchAll
  by_cases hm : h ∈ handlers <;> simp [hm]

theorem addLocal_cases (h : η) (b : Bus η) :
    (h ∉ b.locals ∧ addLocal (κ := κ) h b =
      (.ok (), { b with locals := insertByName h b.locals })) ∨
    (h ∈ b.locals ∧
      ∃ registry, addLocal (κ := κ) h b =
        (.fail (.alreadyRegistered registry (EventHandler.name h)), b)) := by
  unfold addLocal
  rcases addCatchAll_cases (κ := κ) "event bus local handlers" h b.locals with ⟨hm, hr⟩ | ⟨hm, hr⟩
  · exact Or.inl ⟨hm, by rw [hr]⟩
  · exact Or.inr ⟨hm, _, by rw [hr]⟩

theorem addGlobal_cases (h : η) (b : Bus η) :
    (h ∉ b.globals ∧ addGlobal (κ := κ) h b =
      (.ok (), { b with globals := insertByName h b.globals })) ∨
    (h ∈ b.globals ∧
      ∃ registry, addGlobal (κ := κ) h b =
        (.fail (.alreadyRegistered registry (EventHandler.name h)), b)) := by
  unfold addGlobal
  rcases addCatchAll_cases (κ := κ) "event bus global handlers" h b.globals with
    ⟨hm, hr⟩ | ⟨hm, hr⟩
  · exact Or.inl ⟨hm, by rw [hr]⟩
  · exact Or.inr ⟨hm, _, by rw [hr]⟩

theorem tryEntry_cases (entry : Entry η) (b : Bus η) :
    (tryEntry κ entry b).1 = .ok () ∨ ∃ registry tag,
      tryEntry κ entry b = (.fail (.alreadyRegistered registry tag), b) := by
  cases entry with
  | typed h ts =>
    rcases addHandler_cases (κ := κ) h ts b with ⟨-, hr⟩ | ⟨-, t, hr⟩
    · exact Or.inl (congrArg Prod.fst hr)
    · exact Or.inr ⟨_, t, hr⟩
  | locally h =>
    rcases addLocal_cases (κ := κ) h b with ⟨-, hr⟩ | ⟨-, registry, hr⟩
    · exact Or.inl (congrArg Prod.fst hr)
    · exact Or.inr ⟨registry, _, hr⟩
  | globally h =>
    rcases addGlobal_cases (κ := κ) h b with ⟨-, hr⟩ | ⟨-, registry, hr⟩
    · exact Or.inl (congrArg Prod.fst hr)
    · exact Or.inr ⟨registry, _, hr⟩

theorem registers (κ : Type) (b : Bus η) : b.Registers κ where
  typed_iff := by
    intro h ts
    rcases addHandler_cases (κ := κ) h ts b with ⟨hnew, hr⟩ | ⟨htaken, t, hr⟩
    · exact ⟨fun _ => hnew, fun _ => congrArg Prod.fst hr⟩
    · exact ⟨fun hok => (nomatch (congrArg Prod.fst hr).symm.trans hok),
        fun hnew => absurd hnew htaken⟩
  typed := by
    intro h ts b' hok
    rcases addHandler_cases (κ := κ) h ts b with ⟨⟨hts, -⟩, hr⟩ | ⟨-, t, hr⟩
    · obtain rfl := congrArg Prod.snd (hr.symm.trans hok)
      exact ⟨typed_foldl_subscribe hts h b, locals_foldl_subscribe ts h b,
        globals_foldl_subscribe ts h b⟩
    · nomatch hr.symm.trans hok
  locally_iff := by
    intro h
    rcases addLocal_cases (κ := κ) h b with ⟨hnew, hr⟩ | ⟨hm, registry, hr⟩
    · exact ⟨fun _ => hnew, fun _ => congrArg Prod.fst hr⟩
    · exact ⟨fun hok => (nomatch (congrArg Prod.fst hr).symm.trans hok), absurd hm⟩
  locally := by
    intro h b' hok
    rcases addLocal_cases (κ := κ) h b with ⟨-, hr⟩ | ⟨-, registry, hr⟩
    · obtain rfl := congrArg Prod.snd (hr.symm.trans hok)
      exact ⟨insertByName_perm h b.locals, fun _ => rfl, rfl⟩
    · nomatch hr.symm.trans hok
  globally_iff := by
    intro h
    rcases addGlobal_cases (κ := κ) h b with ⟨hnew, hr⟩ | ⟨hm, registry, hr⟩
    · exact ⟨fun _ => hnew, fun _ => congrArg Prod.fst hr⟩
    · exact ⟨fun hok => (nomatch (congrArg Prod.fst hr).symm.trans hok), absurd hm⟩
  globally := by
    intro h b' hok
    rcases addGlobal_cases (κ := κ) h b with ⟨-, hr⟩ | ⟨-, registry, hr⟩
    · obtain rfl := congrArg Prod.snd (hr.symm.trans hok)
      exact ⟨insertByName_perm h b.globals, fun _ => rfl, rfl⟩
    · nomatch hr.symm.trans hok
  refused := by
    intro entry fault b' herr
    rcases tryEntry_cases (κ := κ) entry b with hok | ⟨registry, tag, hr⟩
    · rw [herr] at hok
      nomatch hok
    · obtain ⟨hfault, hb⟩ := Prod.mk.inj (hr.symm.trans herr)
      exact ⟨hb.symm, registry, tag, (Except.error.inj hfault).symm⟩

theorem Distinct.enter {b : Bus η} (hb : b.Distinct) (entry : Entry η) :
    (b.enter κ entry).Distinct := by
  have hreg := registers κ b
  rcases hok : tryEntry κ entry b with ⟨fault | _, b'⟩ <;> simp only [Bus.enter, hok]
  · obtain ⟨rfl, -⟩ := hreg.refused entry fault b' hok
    exact hb
  · cases entry with
    | typed h ts =>
      obtain ⟨htyped, hlocals, hglobals⟩ := hreg.typed h ts b' hok
      obtain ⟨-, hnew⟩ := (hreg.typed_iff h ts).1 (congrArg Prod.fst hok)
      refine ⟨fun t => ?_, hlocals ▸ hb.locals, hglobals ▸ hb.globals⟩
      rw [htyped]
      split
      · rename_i ht
        exact List.nodup_append.2 ⟨hb.typed t, List.nodup_singleton h,
          fun a ha a' ha' => by rintro rfl; exact hnew t ht (List.mem_singleton.1 ha' ▸ ha)⟩
      · exact hb.typed t
    | locally h =>
      obtain ⟨hlocals, htyped, hglobals⟩ := hreg.locally h b' hok
      have hnew := (hreg.locally_iff h).1 (congrArg Prod.fst hok)
      exact ⟨fun t => htyped t ▸ hb.typed t,
        hlocals.nodup_iff.2 (List.nodup_cons.2 ⟨hnew, hb.locals⟩), hglobals ▸ hb.globals⟩
    | globally h =>
      obtain ⟨hglobals, htyped, hlocals⟩ := hreg.globally h b' hok
      have hnew := (hreg.globally_iff h).1 (congrArg Prod.fst hok)
      exact ⟨fun t => htyped t ▸ hb.typed t, hlocals ▸ hb.locals,
        hglobals.nodup_iff.2 (List.nodup_cons.2 ⟨hnew, hb.globals⟩)⟩

theorem distinct_enterAll (κ : Type) (entries : List (Entry η)) :
    (enterAll κ entries).Distinct := by
  have hfold : ∀ b : Bus η, b.Distinct → (entries.foldl (Bus.enter κ) b).Distinct := by
    induction entries with
    | nil => exact fun b hb => hb
    | cons entry entries ih => exact fun b hb => ih _ (hb.enter entry)
  exact hfold _ ⟨fun _ => List.nodup_nil, List.nodup_nil, List.nodup_nil⟩

/-- Two handlers of one name. The first entry names a type twice and the fourth one that is taken, so
they bring nothing. -/
example :
    let _ : EventHandler Nat := ⟨fun _ => "counter"⟩
    enterAll Unit [.typed 0 ["Created", "Created"], .typed 0 ["Created"], .typed 1 ["Created"],
      .typed 0 ["Renamed", "Created"], .globally 1, .globally 0, .globally 1] =
      ⟨[("Created", 0), ("Created", 1)], [], [1, 0]⟩ := by
  rfl

end Registering

section Delivering

def Order (b : Bus η) (eventType : String) (order : List η) : Prop :=
  ∃ ls gs, ls.Perm b.locals ∧ gs.Perm b.globals ∧ order = b.typed eventType ++ ls ++ gs

theorem order_targets (b : Bus η) (eventType : String) : b.Order eventType (b.targets eventType) :=
  ⟨b.locals, b.globals, List.Perm.refl _, List.Perm.refl _, rfl⟩

theorem Order.length_eq {b : Bus η} {eventType : String} {order : List η}
    (h : b.Order eventType order) : order.length = b.handlerCount eventType := by
  obtain ⟨ls, gs, hls, hgs, rfl⟩ := h
  simp [handlerCount, hls.length_eq, hgs.length_eq, Nat.add_assoc]

theorem Order.count_eq [DecidableEq η] {b : Bus η} (hb : b.Distinct) {eventType : String}
    {order : List η} (h : b.Order eventType order) (handler : η) :
    order.count handler =
      (if handler ∈ b.typed eventType then 1 else 0) + (if handler ∈ b.locals then 1 else 0) +
        (if handler ∈ b.globals then 1 else 0) := by
  obtain ⟨ls, gs, hls, hgs, rfl⟩ := h
  rw [List.count_append, List.count_append, hls.count_eq, hgs.count_eq,
    (hb.typed eventType).count, hb.locals.count, hb.globals.count]

def noting (react : η → EventMessage π → Action ω ε Unit) :
    η → EventMessage π → Action (ω × List (η × EventMessage π)) ε Unit :=
  fun handler e (w, calls) =>
    let (out, w) := react handler e w
    (out, w, calls ++ [(handler, e)])

variable {react : η → EventMessage π → Action ω ε Unit} {e : EventMessage π}
  {order : List η} {w w' : ω}

theorem deliver_eq_inTurn (react : η → EventMessage π → Action ω ε Unit) (e : EventMessage π)
    (order : List η) (w : ω) :
    deliver react e order w = inTurn (fun handler => react handler e) order w := by
  induction order generalizing w with
  | nil => rfl
  | cons handler rest ih =>
    simp only [deliver, inTurn]
    rcases react handler e w with ⟨_ | _, w'⟩
    · rfl
    · exact ih w'

theorem publishAll_eq_inTurn (publish : EventMessage π → Action ω ε Unit)
    (es : List (EventMessage π)) (w : ω) : publishAll publish es w = inTurn publish es w := by
  induction es generalizing w with
  | nil => rfl
  | cons e es ih =>
    simp only [publishAll, inTurn]
    rcases publish e w with ⟨_ | _, w'⟩
    · rfl
    · exact ih w'

theorem through_noting (h : Through (fun handler => react handler e) order w w')
    (seen : List (η × EventMessage π)) :
    Through (fun handler => noting react handler e) order (w, seen)
      (w', seen ++ order.map (·, e)) := by
  induction h generalizing seen with
  | nil => simpa using Through.nil
  | @cons handler _ _ _ _ hx _ ih =>
    have hrest := ih (seen ++ [(handler, e)])
    rw [List.append_assoc] at hrest
    exact .cons (by simp only [noting, hx]) hrest

def callsOf (react : η → EventMessage π → Action ω ε Unit) (e : EventMessage π)
    (order : List η) (w : ω) : List (η × EventMessage π) :=
  (deliver (noting react) e order (w, [])).2.2

/-- All are called, or all up to the first that fails, whose error is the answer. -/
structure Delivers (react : η → EventMessage π → Action ω ε Unit) (e : EventMessage π)
    (order : List η) (w : ω) : Prop where
  watched : deliver (noting react) e order (w, []) =
    ((deliver react e order w).1, (deliver react e order w).2, callsOf react e order w)
  succeeds : (∀ handler ∈ order, ∀ w, (react handler e w).1 = .ok ()) →
    (deliver react e order w).1 = .ok ()
  all : (deliver react e order w).1 = .ok () → callsOf react e order w = order.map (·, e)
  failed : ∀ fault, (deliver react e order w).1 = .error fault →
    ∃ before handler after w', order = before ++ handler :: after ∧
      callsOf react e order w = (before ++ [handler]).map (·, e) ∧
      Through (fun handler => react handler e) before w w' ∧
      (react handler e w').1 = .error fault

theorem delivers (react : η → EventMessage π → Action ω ε Unit) (e : EventMessage π)
    (order : List η) (w : ω) : Delivers react e order w := by
  have hsucceeds : (∀ handler ∈ order, ∀ w, (react handler e w).1 = .ok ()) →
      (deliver react e order w).1 = .ok () := by
    rw [deliver_eq_inTurn]
    exact inTurn_of_forall_ok
  have hends := endsInTurn (fun handler => react handler e) order w
  rw [← deliver_eq_inTurn] at hends
  generalize hd : deliver react e order w = ends at hends hsucceeds
  cases hends with
  | @all w' hall =>
    have hnoted : deliver (noting react) e order (w, []) = (.ok (), w', order.map (·, e)) := by
      have := inTurn_append (through_noting hall []) []
      rwa [List.append_nil, ← deliver_eq_inTurn] at this
    refine ⟨by rw [callsOf, hnoted, hd], hd ▸ hsucceeds, fun _ => by rw [callsOf, hnoted], ?_⟩
    intro fault hf
    rw [hd] at hf
    nomatch hf
  | @failed before after handler w₁ w₂ fault horder hbefore hfail =>
    have hnoted : deliver (noting react) e order (w, []) =
        (.error fault, w₂, (before ++ [handler]).map (·, e)) := by
      rw [deliver_eq_inTurn, horder, inTurn_append (through_noting hbefore [])]
      simp only [inTurn, noting, hfail, List.nil_append, List.map_append, List.map_cons,
        List.map_nil]
    refine ⟨by rw [callsOf, hnoted, hd], hd ▸ hsucceeds, ?_, ?_⟩
    · intro hok
      rw [hd] at hok
      nomatch hok
    · intro fault' hf
      rw [hd] at hf
      obtain rfl := Except.error.inj hf
      exact ⟨before, handler, after, w₁, horder, by rw [callsOf, hnoted], hbefore,
        congrArg Prod.fst hfail⟩

/-- Whatever registrations were tried: no handler stands twice in a list; the next registration is
accepted just if it brings no handler into a list twice; publishing calls every handler once for
each list that it is in, in the order of the lists, or those up to the first that fails; and
publishing several events goes on up to the first whose publishing fails. -/
theorem delivered_as_registered [DecidableEq η] [EventHandler η] [EventPayload π] (κ : Type)
    (entries : List (Entry η)) (busOf : ω → Bus η)
    (react : η → EventMessage π → Action ω ε Unit) (e : EventMessage π) :
    let b := enterAll κ entries
    b.Distinct ∧ b.Registers κ ∧
    (∀ order w, b.Order e.eventType order → Delivers react e order w ∧
      ((deliver react e order w).1 = .ok () →
        (callsOf react e order w).length = b.handlerCount e.eventType ∧
        ∀ handler, ((callsOf react e order w).map (·.1)).count handler =
          (if handler ∈ b.typed e.eventType then 1 else 0) +
            (if handler ∈ b.locals then 1 else 0) + (if handler ∈ b.globals then 1 else 0))) ∧
    b.Order e.eventType (b.targets e.eventType) ∧
    (∀ w, busOf w = b →
      publish busOf react e w = deliver react e (b.targets e.eventType) w ∧
      publish (fun w => busOf w.1) (noting react) e (w, []) =
        ((publish busOf react e w).1, (publish busOf react e w).2,
          callsOf react e (b.targets e.eventType) w)) ∧
    ∀ (publishOne : EventMessage π → Action ω ε Unit) es w,
      EndsInTurn publishOne es w (publishAll publishOne es w) := by
  intro b
  have hb : b.Distinct := distinct_enterAll κ entries
  refine ⟨hb, registers κ b, ?_, order_targets b e.eventType, ?_, ?_⟩
  · intro order w horder
    have hdelivers := delivers react e order w
    refine ⟨hdelivers, fun hok => ?_⟩
    rw [hdelivers.all hok, List.length_map, List.map_map]
    refine ⟨horder.length_eq, fun handler => ?_⟩
    rw [show Prod.fst ∘ (fun handler => (handler, e)) = id from rfl, List.map_id]
    exact horder.count_eq hb handler
  · intro w hw
    simp only [publish, hw]
    exact ⟨trivial, (delivers react e (b.targets e.eventType) w).watched⟩
  · intro publishOne es w
    rw [publishAll_eq_inTurn]
    exact endsInTurn publishOne es w

end Delivering

end Bus

end EventSourcing
