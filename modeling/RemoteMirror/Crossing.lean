/-
**Crossing messages: two copies of one machine joined by two first-in-first-out channels.**

A *machine* is a partial transition function `step : P → M → Option P`; a message it has no
transition for is rejected.  Two parties run a copy each.  The left party may send the messages of
a class `L`, the right party those of a class `R`; a party sends a message by taking the transition
itself, so it only sends what its own copy accepts, and the other copy takes the same transition
when the message is delivered.  Messages of the two directions cross, so the two copies see the
same messages in different orders.

What makes such a protocol work is local: in every state in which a message of each class is
enabled, the two transitions form a square (`Crossing.Diamond`), except that the right party may
have the last word.  This module turns the local squares into agreement over whole runs.

Main definitions:

* `Crossing.runs` — a machine run over a list of messages;
* `Crossing.Dead` — a state that rejects everything;
* `Crossing.Diamond` — the local squares;
* `Crossing.Config`, `Crossing.Step` — the two copies with the messages in flight;
* `Crossing.Coherent` — both copies are reached from one state by what they have in flight.

Main results:

* `Crossing.Diamond.left_over`, `Crossing.Diamond.right_over` — one message of a direction passes
  over a whole run of the other direction;
* `Crossing.Coherent.preserved` — every step keeps configurations coherent;
* `Crossing.Coherent.left_accepts`, `Crossing.Coherent.right_accepts` — **the left party accepts
  every delivered message, the right party rejects one only in a dead state**.
-/

import Mathlib

namespace Crossing

variable {P M : Type*}

/-! ### Runs of a machine -/

/-- The state reached from `p` by the messages `ms`, oldest first, if all are accepted. -/
def runs (step : P → M → Option P) (p : P) : List M → Option P
  | [] => some p
  | m :: ms => (step p m).bind fun q => runs step q ms

/-- A state in which every message is rejected. -/
def Dead (step : P → M → Option P) (p : P) : Prop := ∀ m, step p m = none

variable {step : P → M → Option P}

@[simp] theorem runs_nil (p : P) : runs step p [] = some p := rfl

variable {ms : List M} {p r : P} {m : M}

theorem runs_cons_eq_some :
    runs step p (m :: ms) = some r ↔ ∃ q, step p m = some q ∧ runs step q ms = some r := by
  simp [runs, Option.bind_eq_some_iff]

theorem runs_concat {q : P} (h : runs step p ms = some q) (hm : step q m = some r) :
    runs step p (ms ++ [m]) = some r := by
  induction ms generalizing p with
  | nil =>
    obtain rfl : p = q := by simpa using h
    simp [runs, hm]
  | cons a ms ih =>
    obtain ⟨p', hp, hms⟩ := runs_cons_eq_some.1 h
    exact runs_cons_eq_some.2 ⟨p', hp, ih hms⟩

/-- Nothing runs out of a dead state. -/
theorem Dead.runs_eq (hd : Dead step p) (h : runs step p ms = some r) : ms = [] ∧ r = p := by
  cases ms with
  | nil => exact ⟨rfl, by simpa using h.symm⟩
  | cons m ms =>
    obtain ⟨q, hq, _⟩ := runs_cons_eq_some.1 h
    rw [hd m] at hq
    exact absurd hq (by simp)

/-! ### The local squares -/

/-- The local squares of a protocol: only messages of the right party end the conversation, and
two messages of opposite directions that are both enabled commute, unless the one of the right
party ends the conversation; then it still does so after the one of the left party. -/
structure Diamond (step : P → M → Option P) (L R : M → Prop) : Prop where
  alive : ∀ {p q : P} {a : M}, L a → step p a = some q → ¬ Dead step q
  square : ∀ {p pa pb : P} {a b : M}, L a → R b → step p a = some pa → step p b = some pb →
    (Dead step pb ∧ step pa b = some pb) ∨ ∃ q, step pa b = some q ∧ step pb a = some q

variable {L R : M → Prop}

/-- A message of the left party passes over a run of the right party. -/
theorem Diamond.left_over (h : Diamond step L R) {a : M} (ha : L a) :
    ∀ {ms : List M}, (∀ b ∈ ms, R b) → ∀ {p pa s : P}, step p a = some pa →
      runs step p ms = some s →
      (Dead step s ∧ runs step pa ms = some s) ∨ ∃ s', step s a = some s' ∧
        runs step pa ms = some s' := by
  intro ms
  induction ms with
  | nil =>
    intro _ p pa s hpa hs
    obtain rfl : p = s := by simpa using hs
    exact .inr ⟨pa, hpa, rfl⟩
  | cons b ms ih =>
    intro hR p pa s hpa hs
    obtain ⟨pb, hpb, hms⟩ := runs_cons_eq_some.1 hs
    rcases h.square ha (hR b (by simp)) hpa hpb with ⟨hd, hq⟩ | ⟨q, hq, hqa⟩
    · obtain ⟨rfl, rfl⟩ := hd.runs_eq hms
      exact .inl ⟨hd, runs_cons_eq_some.2 ⟨s, hq, rfl⟩⟩
    · rcases ih (fun c hc => hR c (by simp [hc])) hqa hms with ⟨hd, hr⟩ | ⟨s', hs', hr⟩
      · exact .inl ⟨hd, runs_cons_eq_some.2 ⟨q, hq, hr⟩⟩
      · exact .inr ⟨s', hs', runs_cons_eq_some.2 ⟨q, hq, hr⟩⟩

/-- A message of the right party passes over a run of the left party. -/
theorem Diamond.right_over (h : Diamond step L R) {b : M} (hb : R b) :
    ∀ {ms : List M}, (∀ a ∈ ms, L a) → ∀ {p pb s : P}, step p b = some pb →
      runs step p ms = some s →
      (Dead step pb ∧ step s b = some pb) ∨ ∃ s', step s b = some s' ∧
        runs step pb ms = some s' := by
  intro ms
  induction ms with
  | nil =>
    intro _ p pb s hpb hs
    obtain rfl : p = s := by simpa using hs
    exact .inr ⟨pb, hpb, rfl⟩
  | cons a ms ih =>
    intro hL p pb s hpb hs
    obtain ⟨pa, hpa, hms⟩ := runs_cons_eq_some.1 hs
    have hL' : ∀ c ∈ ms, L c := fun c hc => hL c (by simp [hc])
    rcases h.square (hL a (by simp)) hb hpa hpb with ⟨hd, hq⟩ | ⟨q, hq, hqa⟩
    · rcases ih hL' hq hms with hdone | ⟨s', hs', hr⟩
      · exact .inl hdone
      · obtain ⟨-, rfl⟩ := hd.runs_eq hr
        exact .inl ⟨hd, hs'⟩
    · rcases ih hL' hq hms with ⟨hd, -⟩ | ⟨s', hs', hr⟩
      · exact absurd hd (h.alive (hL a (by simp)) hqa)
      · exact .inr ⟨s', hs', runs_cons_eq_some.2 ⟨q, hqa, hr⟩⟩

/-! ### Two copies and the messages in flight -/

/-- The two copies of the machine and the messages in flight in each direction, oldest first. -/
structure Config (P M : Type*) where
  left : P
  right : P
  toRight : List M
  toLeft : List M

/-- A party sends what its own copy accepts.  The oldest message of a channel is delivered: the
receiver accepts it, or rejects it and stays as it is. -/
inductive Step (step : P → M → Option P) (L R : M → Prop) : Config P M → Config P M → Prop
  | sendLeft {c : Config P M} {m : M} {p : P} : L m → step c.left m = some p →
      Step step L R c { c with left := p, toRight := c.toRight ++ [m] }
  | sendRight {c : Config P M} {m : M} {p : P} : R m → step c.right m = some p →
      Step step L R c { c with right := p, toLeft := c.toLeft ++ [m] }
  | takeRight {c : Config P M} {m : M} {ms : List M} {p : P} : c.toRight = m :: ms →
      step c.right m = some p → Step step L R c { c with right := p, toRight := ms }
  | dropRight {c : Config P M} {m : M} {ms : List M} : c.toRight = m :: ms →
      step c.right m = none → Step step L R c { c with toRight := ms }
  | takeLeft {c : Config P M} {m : M} {ms : List M} {p : P} : c.toLeft = m :: ms →
      step c.left m = some p → Step step L R c { c with left := p, toLeft := ms }
  | dropLeft {c : Config P M} {m : M} {ms : List M} : c.toLeft = m :: ms →
      step c.left m = none → Step step L R c { c with toLeft := ms }

/-- Both copies are reached from one state by the messages each has in flight; once the last word
of the right party has arrived, both are dead and nothing is on its way to the left party. -/
def Coherent (step : P → M → Option P) (L R : M → Prop) (c : Config P M) : Prop :=
  ((∀ a ∈ c.toRight, L a) ∧ (∀ b ∈ c.toLeft, R b) ∧
    ∃ base, runs step base c.toRight = some c.left ∧ runs step base c.toLeft = some c.right) ∨
  (Dead step c.left ∧ Dead step c.right ∧ c.toLeft = [])

theorem Coherent.start (p : P) : Coherent step L R ⟨p, p, [], []⟩ :=
  .inl ⟨by simp, by simp, p, rfl, rfl⟩

variable {c : Config P M}

/-- **The left party accepts every delivered message.** -/
theorem Coherent.left_accepts (h : Diamond step L R) (hc : Coherent step L R c)
    (hm : c.toLeft = m :: ms) : ∃ p, step c.left m = some p := by
  rcases hc with ⟨hL, hR, base, hl, hr⟩ | ⟨_, _, hnil⟩
  · rw [hm] at hr
    obtain ⟨pb, hpb, _⟩ := runs_cons_eq_some.1 hr
    rcases h.right_over (hR m (by simp [hm])) hL hpb hl with ⟨_, hp⟩ | ⟨p, hp, _⟩
    · exact ⟨pb, hp⟩
    · exact ⟨p, hp⟩
  · rw [hnil] at hm
    exact absurd hm (by simp)

/-- **The right party rejects a delivered message only in a dead state.** -/
theorem Coherent.right_accepts (h : Diamond step L R) (hc : Coherent step L R c)
    (hm : c.toRight = m :: ms) : Dead step c.right ∨ ∃ p, step c.right m = some p := by
  rcases hc with ⟨hL, hR, base, hl, hr⟩ | ⟨_, hd, _⟩
  · rw [hm] at hl
    obtain ⟨pa, hpa, _⟩ := runs_cons_eq_some.1 hl
    rcases h.left_over (hL m (by simp [hm])) hR hpa hr with ⟨hd, _⟩ | ⟨p, hp, _⟩
    · exact .inl hd
    · exact .inr ⟨p, hp⟩
  · exact .inl hd

/-- One step keeps the two copies coherent. -/
theorem Coherent.preserved (h : Diamond step L R) {d : Config P M} (hc : Coherent step L R c)
    (hs : Step step L R c d) : Coherent step L R d := by
  rcases hc with ⟨hL, hR, base, hl, hr⟩ | ⟨hdl, hdr, hnil⟩
  · cases hs with
    | @sendLeft m p hm hp =>
      refine .inl ⟨?_, hR, base, runs_concat hl hp, hr⟩
      intro a ha
      rcases List.mem_append.1 ha with ha | ha
      · exact hL a ha
      · exact List.mem_singleton.1 ha ▸ hm
    | @sendRight m p hm hp =>
      refine .inl ⟨hL, ?_, base, hl, runs_concat hr hp⟩
      intro b hb
      rcases List.mem_append.1 hb with hb | hb
      · exact hR b hb
      · exact List.mem_singleton.1 hb ▸ hm
    | @takeRight m ms p hm hp =>
      rw [hm] at hl hL
      obtain ⟨pa, hpa, hms⟩ := runs_cons_eq_some.1 hl
      refine .inl ⟨fun a ha => hL a (by simp [ha]), hR, pa, hms, ?_⟩
      rcases h.left_over (hL m (by simp)) hR hpa hr with ⟨hd, _⟩ | ⟨s', hs', hr'⟩
      · rw [hd m] at hp
        exact absurd hp (by simp)
      · rw [hs'] at hp
        exact Option.some_inj.1 hp ▸ hr'
    | @dropRight m ms hm hp =>
      rw [hm] at hl hL
      obtain ⟨pa, hpa, hms⟩ := runs_cons_eq_some.1 hl
      refine .inl ⟨fun a ha => hL a (by simp [ha]), hR, pa, hms, ?_⟩
      rcases h.left_over (hL m (by simp)) hR hpa hr with ⟨_, hr'⟩ | ⟨s', hs', _⟩
      · exact hr'
      · rw [hs'] at hp
        exact absurd hp (by simp)
    | @takeLeft m ms p hm hp =>
      rw [hm] at hr hR
      obtain ⟨pb, hpb, hms⟩ := runs_cons_eq_some.1 hr
      rcases h.right_over (hR m (by simp)) hL hpb hl with ⟨hd, hpb'⟩ | ⟨s', hs', hl'⟩
      · obtain ⟨hnil, hright⟩ := hd.runs_eq hms
        rw [hpb'] at hp
        refine .inr ⟨Option.some_inj.1 hp ▸ hd, ?_, hnil⟩
        exact hright ▸ hd
      · rw [hs'] at hp
        exact .inl ⟨hL, fun b hb => hR b (by simp [hb]), pb, Option.some_inj.1 hp ▸ hl', hms⟩
    | @dropLeft m ms hm hp =>
      obtain ⟨p, hp'⟩ := Coherent.left_accepts h (.inl ⟨hL, hR, base, hl, hr⟩) hm
      rw [hp'] at hp
      exact absurd hp (by simp)
  · cases hs with
    | @sendLeft m p _ hp => rw [hdl m] at hp; exact absurd hp (by simp)
    | @sendRight m p _ hp | @takeRight m ms p _ hp => rw [hdr m] at hp; exact absurd hp (by simp)
    | dropRight _ _ => exact .inr ⟨hdl, hdr, hnil⟩
    | takeLeft hm _ | dropLeft hm _ => rw [hnil] at hm; exact absurd hm (by simp)

end Crossing
