/-
**Runs of an event-driven machine.**

A program that sits in an event loop is a partial step function: in state `s` the event `e` either
cannot happen (`none`) or leads to one next state.  All the nondeterminism of the environment is in
the events.  A run is a list of events; it is carried out as far as its events can happen.

Main definitions:

* `EventRun.states` — the states a run passes through, the first one included;
* `EventRun.moves` — the steps a run takes, each as the state before it and its event, with
  `EventRun.forall_moves_iff` for a machine in which every event can happen.

Main results:

* `EventRun.guarded_invariant` — what every permitted step keeps holds in every state of a run all
  of whose steps are permitted;
* `EventRun.invariant` — the same for a property that every step keeps;
* `EventRun.holds_iff` — **the exact condition**: if permitted steps keep an invariant that implies
  a property, and a step that is not permitted breaks the property at once, then the property holds
  all along a run exactly when all its steps are permitted;
* `EventRun.moves_iff` — the same for a property of the steps;
* `EventRun.simulation` — a machine each of whose steps is one step of another machine, or none,
  passes only through states that the other can reach;
* `EventRun.states_map` — when each step of a machine is the image of a step of another one, so are
  the states of its runs.
-/
import Mathlib.Data.List.Basic

set_option relaxedAutoImplicit false
set_option autoImplicit false

namespace EventRun

variable {σ ε : Type*} {step : σ → ε → Option σ}

/-- The states a run passes through.  The run stops at the first event that cannot happen. -/
def states (step : σ → ε → Option σ) : σ → List ε → List σ
  | s, [] => [s]
  | s, e :: es =>
      s :: match step s e with
        | none => []
        | some t => states step t es

/-- The steps a run takes: the state before each step and the event of the step. -/
def moves (step : σ → ε → Option σ) : σ → List ε → List (σ × ε)
  | _, [] => []
  | s, e :: es =>
      match step s e with
      | none => []
      | some t => (s, e) :: moves step t es

@[simp] theorem states_nil (s : σ) : states step s [] = [s] := rfl

@[simp] theorem moves_nil (s : σ) : moves step s [] = [] := rfl

theorem states_cons_some {s t : σ} {e : ε} (h : step s e = some t) (es : List ε) :
    states step s (e :: es) = s :: states step t es := by
  simp only [states, h]

theorem states_cons_none {s : σ} {e : ε} (h : step s e = none) (es : List ε) :
    states step s (e :: es) = [s] := by
  simp only [states, h]

theorem moves_cons_some {s t : σ} {e : ε} (h : step s e = some t) (es : List ε) :
    moves step s (e :: es) = (s, e) :: moves step t es := by
  simp only [moves, h]

theorem moves_cons_none {s : σ} {e : ε} (h : step s e = none) (es : List ε) :
    moves step s (e :: es) = [] := by
  simp only [moves, h]

/-- A run starts in its first state. -/
theorem mem_states_self (s : σ) (es : List ε) : s ∈ states step s es := by
  cases es <;> simp [states]

/-- The events a run takes are events of the run. -/
theorem mem_of_mem_moves {s : σ} {es : List ε} {p : σ × ε} (hp : p ∈ moves step s es) :
    p.2 ∈ es := by
  induction es generalizing s with
  | nil => simp at hp
  | cons e es ih =>
      cases h : step s e with
      | none => simp [moves_cons_none h] at hp
      | some t =>
          rw [moves_cons_some h] at hp
          rcases List.mem_cons.1 hp with rfl | hp
          · exact List.mem_cons_self ..
          · exact List.mem_cons_of_mem _ (ih hp)

/-- When every event can happen, a run takes all its events. -/
theorem forall_moves_iff (htotal : ∀ s e, (step s e).isSome) {s : σ} {es : List ε} {Q : ε → Prop} :
    (∀ p ∈ moves step s es, Q p.2) ↔ ∀ e ∈ es, Q e := by
  induction es generalizing s with
  | nil => simp
  | cons e es ih =>
      obtain ⟨t, ht⟩ := Option.isSome_iff_exists.1 (htotal s e)
      rw [moves_cons_some ht, List.forall_mem_cons, List.forall_mem_cons, ih]

/-- A run takes its steps in states it passes through. -/
theorem step_of_mem_moves {s : σ} {es : List ε} {p : σ × ε} (hp : p ∈ moves step s es) :
    p.1 ∈ states step s es ∧ ∃ t, step p.1 p.2 = some t := by
  induction es generalizing s with
  | nil => simp at hp
  | cons e es ih =>
      cases h : step s e with
      | none => simp [moves_cons_none h] at hp
      | some t =>
          rw [moves_cons_some h] at hp
          rw [states_cons_some h]
          rcases List.mem_cons.1 hp with rfl | hp
          · exact ⟨List.mem_cons_self .., t, h⟩
          · obtain ⟨hstate, hstep⟩ := ih hp
            exact ⟨List.mem_cons_of_mem _ hstate, hstep⟩

/-- **The run rule**: an invariant kept by every permitted step holds in every state of a run all
of whose steps are permitted. -/
theorem guarded_invariant (Inv : σ → Prop) (ok : σ → ε → Prop)
    (hstep : ∀ s e t, Inv s → ok s e → step s e = some t → Inv t) {s : σ} {es : List ε}
    (hs : Inv s) (hok : ∀ p ∈ moves step s es, ok p.1 p.2) :
    ∀ t ∈ states step s es, Inv t := by
  induction es generalizing s with
  | nil => simpa using hs
  | cons e es ih =>
      cases h : step s e with
      | none =>
          rw [states_cons_none h]
          simpa using hs
      | some t =>
          rw [moves_cons_some h] at hok
          rw [states_cons_some h]
          have ht : Inv t := hstep s e t hs (hok _ (List.mem_cons_self ..)) h
          intro u hu
          rcases List.mem_cons.1 hu with rfl | hu
          · exact hs
          · exact ih ht (fun p hp => hok p (List.mem_cons_of_mem _ hp)) u hu

/-- An invariant that every step keeps holds in every state of every run. -/
theorem invariant (Inv : σ → Prop) (hstep : ∀ s e t, Inv s → step s e = some t → Inv t)
    {s : σ} (hs : Inv s) (es : List ε) : ∀ t ∈ states step s es, Inv t :=
  guarded_invariant Inv (fun _ _ => True) (fun s e t hi _ h => hstep s e t hi h) hs
    (fun _ _ => trivial)

/-- **The exact condition.**  Let `P` follow from an invariant which every permitted step keeps,
and let every other step lead to a state where `P` fails.  Then `P` holds all along a run exactly
when every step of the run is permitted.  `env` is what the environment promises about each
step. -/
theorem holds_iff (Inv P : σ → Prop) (env ok : σ → ε → Prop)
    (hP : ∀ s, Inv s → P s)
    (hgood : ∀ s e t, Inv s → env s e → ok s e → step s e = some t → Inv t)
    (hbad : ∀ s e t, Inv s → env s e → ¬ ok s e → step s e = some t → ¬ P t)
    {s : σ} {es : List ε} (hs : Inv s) (henv : ∀ p ∈ moves step s es, env p.1 p.2) :
    (∀ t ∈ states step s es, P t) ↔ ∀ p ∈ moves step s es, ok p.1 p.2 := by
  constructor
  · intro hall
    induction es generalizing s with
    | nil => simp
    | cons e es ih =>
        cases h : step s e with
        | none => simp [moves_cons_none h]
        | some t =>
            rw [moves_cons_some h] at henv ⊢
            rw [states_cons_some h] at hall
            have hse : env s e := henv _ (List.mem_cons_self ..)
            have hok : ok s e := by
              by_contra hno
              exact hbad s e t hs hse hno h (hall t (List.mem_cons_of_mem _ (mem_states_self ..)))
            have ht : Inv t := hgood s e t hs hse hok h
            intro p hp
            rcases List.mem_cons.1 hp with rfl | hp
            · exact hok
            · exact ih ht (fun q hq => henv q (List.mem_cons_of_mem _ hq))
                (fun u hu => hall u (List.mem_cons_of_mem _ hu)) p hp
  · intro hok t ht
    have hboth : ∀ p ∈ moves step s es, env p.1 p.2 ∧ ok p.1 p.2 :=
      fun p hp => ⟨henv p hp, hok p hp⟩
    exact hP t (guarded_invariant Inv (fun s e => env s e ∧ ok s e)
      (fun s e t hi h h' => hgood s e t hi h.1 h.2 h') hs hboth t ht)

/-- **The exact condition, of steps.**  In a state where the invariant holds, a step has the
property `Q` exactly when it is permitted, and then it keeps the invariant.  Then every step of a
run has the property exactly when every step is permitted. -/
theorem moves_iff (Inv : σ → Prop) (Q ok : σ → ε → Prop)
    (hstep : ∀ s e t, Inv s → ok s e → step s e = some t → Inv t)
    (hiff : ∀ s e t, Inv s → step s e = some t → (Q s e ↔ ok s e))
    {s : σ} {es : List ε} (hs : Inv s) :
    (∀ p ∈ moves step s es, Q p.1 p.2) ↔ ∀ p ∈ moves step s es, ok p.1 p.2 := by
  constructor
  · intro hall p hp
    obtain ⟨hstate, t, ht⟩ := step_of_mem_moves hp
    have hinv := guarded_invariant Inv (fun s e => Q s e ∧ ∃ t, step s e = some t)
      (fun s e t hi h h' => hstep s e t hi ((hiff s e t hi h').1 h.1) h') hs
      (fun q hq => ⟨hall q hq, (step_of_mem_moves hq).2⟩) p.1 hstate
    exact (hiff p.1 p.2 t hinv ht).1 (hall p hp)
  · intro hall p hp
    obtain ⟨hstate, t, ht⟩ := step_of_mem_moves hp
    have hinv := guarded_invariant Inv ok hstep hs hall p.1 hstate
    exact (hiff p.1 p.2 t hinv ht).2 (hall p hp)

/-- **The simulation rule.**  Let every permitted step of a machine be seen, through `view`, as one
step of another machine or as no step at all.  Then every state of a run of the first, all of whose
steps are permitted, is seen in some run of the second. -/
theorem simulation {τ δ : Type*} {concrete : τ → δ → Option τ} (view : τ → σ) (ok : τ → δ → Prop)
    (hsim : ∀ c d c', ok c d → concrete c d = some c' →
      view c' = view c ∨ ∃ e, step (view c) e = some (view c'))
    {c : τ} {ds : List δ} (hok : ∀ p ∈ moves concrete c ds, ok p.1 p.2) :
    ∀ c' ∈ states concrete c ds, ∃ es, view c' ∈ states step (view c) es := by
  induction ds generalizing c with
  | nil =>
      intro c' hc'
      rw [List.mem_singleton.1 hc']
      exact ⟨[], mem_states_self ..⟩
  | cons d ds ih =>
      cases h : concrete c d with
      | none =>
          rw [states_cons_none h]
          intro c' hc'
          rw [List.mem_singleton.1 hc']
          exact ⟨[], mem_states_self ..⟩
      | some b =>
          rw [moves_cons_some h] at hok
          rw [states_cons_some h]
          intro c' hc'
          rcases List.mem_cons.1 hc' with rfl | hc'
          · exact ⟨[], mem_states_self ..⟩
          obtain ⟨es, hes⟩ := ih (fun p hp => hok p (List.mem_cons_of_mem _ hp)) c' hc'
          rcases hsim c d b (hok _ (List.mem_cons_self ..)) h with hstay | ⟨e, he⟩
          · exact ⟨es, hstay ▸ hes⟩
          · refine ⟨e :: es, ?_⟩
            rw [states_cons_some he]
            exact List.mem_cons_of_mem _ hes

/-- **The lockstep rule.**  When each step of a machine is the image of a step of another one, so
are the states of its runs. -/
theorem states_map {τ : Type*} {step' : τ → ε → Option τ} {f : τ → σ} {ok : ε → Prop}
    (hstep : ∀ t e, ok e → step (f t) e = (step' t e).map f) (t : τ) {es : List ε}
    (hok : ∀ e ∈ es, ok e) : states step (f t) es = (states step' t es).map f := by
  induction es generalizing t with
  | nil => rfl
  | cons e es ih =>
      obtain ⟨he, hes⟩ := List.forall_mem_cons.1 hok
      have hboth := hstep t e he
      cases ht : step' t e with
      | none =>
          rw [ht] at hboth
          rw [states_cons_none hboth, states_cons_none ht, List.map_singleton]
      | some t' =>
          rw [ht] at hboth
          rw [states_cons_some hboth, states_cons_some ht, List.map_cons, ih t' hes]

end EventRun
