/-
**Programs that run in a world they do not own.**

A program is a tree of *calls*: each call waits for an answer, and what the program does next
depends on it.  Several threads run such programs over one world.  Between two calls of a thread
the other threads call as well, and the world moves by itself; a call is answered in any way the
world allows, which is how failures and races come in.

To reason about one thread at a time, `Interact.Spec` says what a thread may rely on between its
calls and what it guarantees with each of them.  `Interact.Spec.Safe` is the weakest precondition
of a program under these terms.

Main definitions:

* `Interact.Prog` — programs, with failure;
* `Interact.Prog.exec`, `Interact.Prog.Ends` — a program that runs alone, and where it can end;
* `Interact.Prog.onlyIf`, `Interact.Prog.follow` — executions that meet a condition, and values that
  follow them;
* `Interact.Machine`, `Interact.Machine.next`, `Interact.Machine.runs` — threads over a world, one
  move at a time;
* `Interact.Spec`, `Interact.Spec.Safe` — rely, guarantee, and the programs that keep to them;
* `Interact.Spec.Triple` — pre- and postconditions;
* `Interact.Spec.Yields` — what a program yields from one world, and what stays true of that world.

Main results:

* `Interact.Spec.Triple.bind`, `Interact.Spec.Triple.call`, `Interact.Spec.Yields.bind` —
  the rules for sequences and calls;
* `Interact.Spec.inv_of_runs`, `Interact.Spec.guar_of_runs` — **threads that are safe one by one
  keep the invariant and their guarantees in every interleaving**.
-/

import Mathlib

namespace Interact

/-- What each step of a fold keeps, the fold keeps. -/
theorem foldlM_keeps {σ β : Type} {f : σ → β → Option σ} {I : σ → Prop} {l : List β} {s s' : σ}
    (keeps : ∀ b ∈ l, ∀ s s', I s → f s b = some s' → I s') (h : I s)
    (folded : l.foldlM f s = some s') : I s' := by
  induction l generalizing s with
  | nil =>
    cases folded
    exact h
  | cons b l ih =>
    rw [List.foldlM_cons] at folded
    obtain ⟨s₁, first, rest⟩ := Option.bind_eq_some_iff.mp folded
    exact ih (fun b' mem => keeps b' (.tail _ mem)) (keeps b (.head _) s s₁ h first) rest

/-! ### Programs -/

/-- A program: a result, a failure, or a call with what follows each answer. -/
inductive Prog (E : Type) (R : E → Type) (ε α : Type)
  | ok (a : α)
  | err (x : ε)
  | call (e : E) (k : R e → Prog E R ε α)

namespace Prog

variable {E : Type} {R : E → Type} {ε α β : Type}

/-- Run `f` on the result; a failure ends the whole program. -/
def bind : Prog E R ε α → (α → Prog E R ε β) → Prog E R ε β
  | .ok a, f => f a
  | .err x, _ => .err x
  | .call e k, f => .call e fun r => (k r).bind f

instance : Monad (Prog E R ε) where
  pure := .ok
  bind := bind

/-- A single call. -/
def ask (e : E) : Prog E R ε (R e) := .call e .ok

/-- A program that is over. -/
def finished : Prog E R ε α → Bool
  | .ok _ => true
  | .err _ => true
  | .call _ _ => false

/-- A failure is a result like any other to the caller. -/
def attempt : Prog E R ε α → Prog E R ε (Except ε α)
  | .ok a => .ok (.ok a)
  | .err x => .ok (.error x)
  | .call e k => .call e fun r => (k r).attempt

end Prog

/-! ### A program that runs alone -/

namespace Prog

variable {E : Type} {R : E → Type} {ε α β σ C : Type} (answer : (e : E) → C → σ → Option (R e × σ))

/-- Run a program to its end with nothing else happening, one choice for each call. -/
def exec : Prog E R ε α → List C → σ → Option (Except ε α × σ)
  | .ok a, [], s => some (.ok a, s)
  | .err x, [], s => some (.error x, s)
  | .call e k, c :: cs, s => (answer e c s).bind fun rt => (k rt.1).exec cs rt.2
  | _, _, _ => none

/-- Whatever the choices, the program ends in `Q`. -/
def Ends : Prog E R ε α → (Except ε α → σ → Prop) → σ → Prop
  | .ok a, Q, s => Q (.ok a) s
  | .err x, Q, s => Q (.error x) s
  | .call e k, Q, s => ∀ c r t, answer e c s = some (r, t) → (k r).Ends Q t

variable {answer} {p : Prog E R ε α} {Q Q' : Except ε α → σ → Prop} {s : σ}

theorem Ends.exec (h : p.Ends answer Q s) {cs : List C} {r : Except ε α} {t : σ}
    (hexec : p.exec answer cs s = some (r, t)) : Q r t := by
  induction p generalizing cs s with
  | ok a =>
    cases cs with
    | nil =>
      obtain ⟨rfl, rfl⟩ : Except.ok a = r ∧ s = t := by simpa [Prog.exec] using hexec
      exact h
    | cons c cs => simp [Prog.exec] at hexec
  | err x =>
    cases cs with
    | nil =>
      obtain ⟨rfl, rfl⟩ : Except.error x = r ∧ s = t := by simpa [Prog.exec] using hexec
      exact h
    | cons c cs => simp [Prog.exec] at hexec
  | call e k ih =>
    cases cs with
    | nil => simp [Prog.exec] at hexec
    | cons c cs =>
      simp only [Prog.exec, Option.bind_eq_some_iff] at hexec
      obtain ⟨⟨r', t'⟩, hanswer, hrest⟩ := hexec
      exact ih r' (h c r' t' hanswer) hrest

theorem Ends.mono (h : p.Ends answer Q s) (hQ : ∀ r t, Q r t → Q' r t) : p.Ends answer Q' s := by
  induction p generalizing s with
  | ok a | err x => exact hQ _ _ h
  | call e k ih => exact fun c r t ht => ih r (h c r t ht)

/-- **Sequences**: the rest ends in `Q` wherever the first part ends. -/
theorem Ends.bind {f : α → Prog E R ε β} {Q : Except ε β → σ → Prop}
    (h : p.Ends answer (fun r t => match r with
      | .ok a => (f a).Ends answer Q t
      | .error x => Q (.error x) t) s) :
    (p >>= f).Ends answer Q s := by
  induction p generalizing s with
  | ok a | err x => exact h
  | call e k ih => exact fun c r t ht => ih r (h c r t ht)

variable {q : Prog E R ε α}

theorem Ends.ite {b : Prop} [Decidable b] (hp : b → p.Ends answer Q s)
    (hq : ¬ b → q.Ends answer Q s) : (if b then p else q).Ends answer Q s := by
  split
  case isTrue h => exact hp h
  case isFalse h => exact hq h

/-- A failure that is caught is a result. -/
theorem Ends.attempt {Q : Except ε (Except ε α) → σ → Prop}
    (h : p.Ends answer (fun r t => Q (.ok r) t) s) : p.attempt.Ends answer Q s := by
  induction p generalizing s with
  | ok a | err x => exact h
  | call e k ih => exact fun c r t ht => ih r (h c r t ht)

theorem Ends.and (h : p.Ends answer Q s) (h' : p.Ends answer Q' s) :
    p.Ends answer (fun r t => Q r t ∧ Q' r t) s := by
  induction p generalizing s with
  | ok a | err x => exact ⟨h, h'⟩
  | call e k ih => exact fun c r t ht => ih r (h c r t ht) (h' c r t ht)

/-! ### What holds if a program succeeds -/

variable (answer) in
/-- If the program returns a result, it is in `Q`. -/
def Gives (p : Prog E R ε α) (Q : α → σ → Prop) (s : σ) : Prop :=
  p.Ends answer (fun r t => ∀ a, r = .ok a → Q a t) s

theorem Gives.mono {Q Q' : α → σ → Prop} (h : p.Gives answer Q s) (hQ : ∀ a t, Q a t → Q' a t) :
    p.Gives answer Q' s :=
  Ends.mono h fun _ t hr a ha => hQ a t (hr a ha)

theorem Gives.pure {Q : α → σ → Prop} {a : α} (h : Q a s) :
    (Pure.pure a : Prog E R ε α).Gives answer Q s := by
  rintro b ⟨⟩
  exact h

theorem Gives.err {Q : α → σ → Prop} {x : ε} : (.err x : Prog E R ε α).Gives answer Q s := nofun

theorem Gives.bind {f : α → Prog E R ε β} {Q : β → σ → Prop}
    (h : p.Gives answer (fun a t => (f a).Gives answer Q t) s) : (p >>= f).Gives answer Q s := by
  refine Ends.bind (Ends.mono h fun r t hr => ?_)
  cases r with
  | ok a => exact hr a rfl
  | error x => exact nofun

theorem Gives.exec {Q : α → σ → Prop} (h : p.Gives answer Q s) {cs : List C} {a : α} {t : σ}
    (hexec : p.exec answer cs s = some (.ok a, t)) : Q a t :=
  Ends.exec h hexec a rfl

/-! ### Programs that keep to some calls -/

/-- Whatever the answers, all calls of the program are of the kind `K`. -/
def Calls (K : E → Prop) : Prog E R ε α → Prop
  | .ok _ => True
  | .err _ => True
  | .call e k => K e ∧ ∀ r, (k r).Calls K

variable {K : E → Prop} {e : E}

theorem Calls.ask (h : K e) : (Prog.ask e : Prog E R ε (R e)).Calls K :=
  ⟨h, fun _ => trivial⟩

theorem Calls.bind {f : α → Prog E R ε β} (hp : p.Calls K) (hf : ∀ a, (f a).Calls K) :
    (p >>= f).Calls K := by
  induction p with
  | ok a => exact hf a
  | err x => exact trivial
  | call e k ih => exact ⟨hp.1, fun r => ih r (hp.2 r)⟩

theorem Calls.attempt (hp : p.Calls K) : p.attempt.Calls K := by
  induction p with
  | ok a | err x => exact trivial
  | call e k ih => exact ⟨hp.1, fun r => ih r (hp.2 r)⟩

theorem Calls.ite {b : Prop} [Decidable b] (hp : b → p.Calls K) (hq : ¬ b → q.Calls K) :
    (if b then p else q).Calls K := by
  split
  case isTrue h => exact hp h
  case isFalse h => exact hq h

theorem Calls.true (p : Prog E R ε α) : p.Calls fun _ => True := by
  induction p with
  | ok a | err x => exact trivial
  | call e k ih => exact ⟨trivial, ih⟩

theorem Calls.mono {K' : E → Prop} (hp : p.Calls K) (h : ∀ e, K e → K' e) : p.Calls K' := by
  induction p with
  | ok a | err x => exact trivial
  | call e k ih => exact ⟨h e hp.1, fun r => ih r (hp.2 r)⟩

/-- **A program ends where its calls can lead.** -/
theorem Calls.ends {L : σ → σ → Prop} (hp : p.Calls K) (hrefl : ∀ s, L s s)
    (htrans : ∀ {s t u}, L s t → L t u → L s u) (h : ∀ e, K e → ∀ c s r t, answer e c s =
      some (r, t) → L s t) :
    p.Ends answer (fun _ t => L s t) s := by
  induction p generalizing s with
  | ok a | err x => exact hrefl s
  | call e k ih =>
    intro c r t ht
    exact (ih r (hp.2 r)).mono fun _ u hu => htrans (h e hp.1 c s r t ht) hu

/-! ### Other answers -/

/-- **A program ends as before if every answer was possible before.** -/
theorem Ends.sim {τ : Type} {answer' : (e : E) → C → τ → Option (R e × τ)} {f : τ → σ} {x : τ}
    (hsim : ∀ e c x r y, answer' e c x = some (r, y) → answer e c (f x) = some (r, f y))
    (h : p.Ends answer Q (f x)) : p.Ends answer' (fun r y => Q r (f y)) x := by
  induction p generalizing x with
  | ok a | err y => exact h
  | call e k ih =>
    intro c r y hy
    exact ih r (h c r (f y) (hsim e c x r y hy))

variable (answer) in
/-- Only calls that meet a condition are answered. -/
def onlyIf (ok : E → C → σ → Bool) (e : E) (c : C) (s : σ) : Option (R e × σ) :=
  if ok e c s then answer e c s else none

variable {ok : E → C → σ → Bool}

theorem onlyIf_eq_some {c : C} {s t : σ} {r : R e} :
    onlyIf answer ok e c s = some (r, t) ↔ ok e c s = true ∧ answer e c s = some (r, t) := by
  simp [onlyIf]

theorem Ends.onlyIf (h : p.Ends answer Q s) : p.Ends (Prog.onlyIf answer ok) Q s :=
  Ends.sim (f := id) (fun _ _ _ _ _ hstep => (onlyIf_eq_some.1 hstep).2) h

variable {γ : Type}

variable (answer) in
/-- A value is carried along: it sees calls and answers, and no program sees it. -/
def follow (g : (e : E) → R e → σ → γ → γ) (e : E) (c : C) (s : σ × γ) : Option (R e × σ × γ) :=
  (answer e c s.1).map fun done => (done.1, done.2, g e done.1 s.1 s.2)

theorem follow_eq_some {g : (e : E) → R e → σ → γ → γ} {c : C} {s t : σ × γ} {r : R e} :
    follow answer g e c s = some (r, t) ↔ answer e c s.1 = some (r, t.1) ∧ t.2 = g e r s.1 s.2 := by
  obtain ⟨t, y⟩ := t
  simp only [follow, Option.map_eq_some_iff]
  constructor
  · rintro ⟨done, hanswer, heq⟩
    cases heq
    exact ⟨hanswer, rfl⟩
  · rintro ⟨hanswer, rfl⟩
    exact ⟨(r, t), hanswer, rfl⟩

end Prog

/-! ### Threads over a world -/

section Machine

variable (ι E : Type) (R : E → Type) (ε σ C J M : Type)

/-- What calls do to the world, which programs the jobs run, and what the world does by itself.
The choice `C` settles what a call leaves open; `none` means that this cannot happen now. -/
structure Machine where
  answer : ι → (e : E) → C → σ → Option (R e × σ)
  body : ι → J → Prog E R ε Unit
  move : M → σ → Option σ

/-- The world, and for each thread its last job and what is left of it. -/
structure State where
  world : σ
  job : ι → Option J
  thread : ι → Prog E R ε Unit

/-- An idle thread takes a job, a thread makes its next call, or the world moves. -/
inductive Move
  | start (i : ι) (j : J)
  | call (i : ι) (c : C)
  | env (m : M)

/-- A move as it looks from the world. -/
inductive Label
  | start (i : ι) (j : J)
  | call (i : ι) (j : Option J) (e : E)
  | env (m : M)

end Machine

variable {ι E : Type} {R : E → Type} {ε σ C J M α β : Type}

/-- Nothing has been started. -/
def State.idle (s : σ) : State ι E R ε σ J := ⟨s, fun _ => none, fun _ => .ok ()⟩

namespace Machine

variable [DecidableEq ι] (P : Machine ι E R ε σ C J M) (calm : Label ι E J M → σ → Bool)

/-- One move, if it can happen and is among those considered. -/
def next (st : State ι E R ε σ J) : Move ι C J M → Option (State ι E R ε σ J)
  | .start i j =>
    if (st.thread i).finished && calm (.start i j) st.world then
      some ⟨st.world, Function.update st.job i (some j),
        Function.update st.thread i (P.body i j)⟩
    else none
  | .call i c =>
    match st.thread i with
    | .call e k =>
      if calm (.call i (st.job i) e) st.world then
        (P.answer i e c st.world).map fun rs =>
          ⟨rs.2, st.job, Function.update st.thread i (k rs.1)⟩
      else none
    | _ => none
  | .env m =>
    if calm (.env m) st.world then
      (P.move m st.world).map fun s => ⟨s, st.job, st.thread⟩
    else none

/-- The state after a list of moves, first one first, if all of them can happen. -/
def runs (st : State ι E R ε σ J) : List (Move ι C J M) → Option (State ι E R ε σ J)
  | [] => some st
  | m :: ms => (P.next calm st m).bind fun st' => runs st' ms

theorem runs_cons_eq_some {st st' : State ι E R ε σ J} {m : Move ι C J M}
    {ms : List (Move ι C J M)} : P.runs calm st (m :: ms) = some st' ↔
      ∃ st₁, P.next calm st m = some st₁ ∧ P.runs calm st₁ ms = some st' := by
  simp [runs, Option.bind_eq_some_iff]

end Machine

/-! ### Rely and guarantee -/

/-- The terms on which threads share a world: an invariant, what a thread may rely on between its
calls, and what each of its calls guarantees to the others. -/
structure Spec (ι σ : Type) where
  inv : σ → Prop
  rely : ι → σ → σ → Prop
  guar : ι → σ → σ → Prop
  rely_refl : ∀ i s, rely i s s
  rely_trans : ∀ {i s t u}, rely i s t → rely i t u → rely i s u
  guar_rely : ∀ {i j s t}, i ≠ j → guar i s t → rely j s t

namespace Spec

section Safe

variable (S : Spec ι σ) (P : Machine ι E R ε σ C J M) (calm : Label ι E J M → σ → Bool) (i : ι)
  (j : Option J)

/-- However the program of thread `i` is answered and whatever the others do meanwhile, it keeps
the invariant and its guarantee, and ends in `Q`. -/
def Safe : Prog E R ε α → (Except ε α → σ → Prop) → σ → Prop
  | .ok a, Q, s => ∀ t, S.rely i s t → S.inv t → Q (.ok a) t
  | .err x, Q, s => ∀ t, S.rely i s t → S.inv t → Q (.error x) t
  | .call e k, Q, s => ∀ t, S.rely i s t → S.inv t → calm (.call i j e) t = true →
      ∀ c r u, P.answer i e c t = some (r, u) → S.inv u ∧ S.guar i t u ∧ Safe (k r) Q u

end Safe

variable {S : Spec ι σ} {P : Machine ι E R ε σ C J M} {calm : Label ι E J M → σ → Bool} {i : ι}
  {j : Option J}
  {s t : σ} {p : Prog E R ε α} {Q : Except ε α → σ → Prop}

/-- What the others do does not matter to a safe program. -/
theorem Safe.stable (h : S.Safe P calm i j p Q s) (hst : S.rely i s t) :
    S.Safe P calm i j p Q t := by
  cases p with
  | ok a | err x | call e k => exact fun u hu => h u (S.rely_trans hst hu)

theorem Safe.mono {Q' : Except ε α → σ → Prop} (h : S.Safe P calm i j p Q s)
    (hQ : ∀ r t, S.inv t → Q r t → Q' r t) : S.Safe P calm i j p Q' s := by
  induction p generalizing s with
  | ok a | err x => exact fun t ht hi => hQ _ t hi (h t ht hi)
  | call e k ih =>
    intro t ht hi hc c r u hu
    obtain ⟨hinv, hguar, hsafe⟩ := h t ht hi hc c r u hu
    exact ⟨hinv, hguar, ih r hsafe⟩

/-- A program only starts once the others have moved. -/
theorem Safe.of_rely (h : ∀ t, S.rely i s t → S.inv t → S.Safe P calm i j p Q t) :
    S.Safe P calm i j p Q s := by
  cases p with
  | ok a | err x | call e k => exact fun t ht hi => h t ht hi t (S.rely_refl i t) hi

/-- **Sequences**: the rest has to be safe wherever the first part ends. -/
theorem Safe.bind {f : α → Prog E R ε β} {Q : Except ε β → σ → Prop}
    (h : S.Safe P calm i j p (fun r t => match r with
      | .ok a => S.Safe P calm i j (f a) Q t
      | .error x => Q (.error x) t) s) :
    S.Safe P calm i j (p >>= f) Q s := by
  induction p generalizing s with
  | ok a =>
    -- the first part is over, and others may still move before the rest calls
    exact Safe.of_rely (p := f a) h
  | err x => exact h
  | call e k ih =>
    intro t ht hi hc c r u hu
    obtain ⟨hinv, hguar, hsafe⟩ := h t ht hi hc c r u hu
    exact ⟨hinv, hguar, ih r hsafe⟩

/-! ### Triples -/

/-- An assertion that the others cannot make false. -/
def Stable (S : Spec ι σ) (i : ι) (A : σ → Prop) : Prop :=
  ∀ s t, S.rely i s t → S.inv t → A s → A t

/-- Started where `A` holds, `p` keeps the terms; a result `a` comes with `Q a`, a failure with
`F`. -/
def Triple (S : Spec ι σ) (P : Machine ι E R ε σ C J M) (calm : Label ι E J M → σ → Bool) (i : ι)
    (j : Option J) (A : σ → Prop) (p : Prog E R ε α) (Q : α → σ → Prop) (F : ε → σ → Prop) :
    Prop :=
  ∀ s, A s → S.Safe P calm i j p (fun r t => match r with
    | .ok a => Q a t
    | .error x => F x t) s

theorem Stable.true : Stable S i fun _ => True := fun _ _ _ _ _ => trivial

theorem Stable.and {A B : σ → Prop} (hA : Stable S i A) (hB : Stable S i B) :
    Stable S i fun s => A s ∧ B s :=
  fun s t hst hi h => ⟨hA s t hst hi h.1, hB s t hst hi h.2⟩

namespace Triple

variable {A A' : σ → Prop} {p : Prog E R ε α} {Q Q' : α → σ → Prop} {F F' : ε → σ → Prop}

theorem pre (h : Triple S P calm i j A p Q F) (hA : ∀ s, A' s → A s) :
    Triple S P calm i j A' p Q F :=
  fun s hs => h s (hA s hs)

/-- A stronger precondition and weaker postconditions. -/
theorem conseq (h : Triple S P calm i j A p Q F) (hA : ∀ s, A' s → A s)
    (hQ : ∀ a s, S.inv s → Q a s → Q' a s) (hF : ∀ x s, S.inv s → F x s → F' x s) :
    Triple S P calm i j A' p Q' F' := by
  intro s hs
  refine (h s (hA s hs)).mono ?_
  intro r t hi hr
  cases r with
  | ok a => exact hQ a t hi hr
  | error x => exact hF x t hi hr

theorem pure {a : α} (hA : Stable S i A) (h : ∀ s, S.inv s → A s → Q a s) :
    Triple S P calm i j A (Pure.pure a) Q F :=
  fun s hs t hst hi => h t hi (hA s t hst hi hs)

theorem err {x : ε} (hA : Stable S i A) (h : ∀ s, S.inv s → A s → F x s) :
    Triple S P calm i j A (.err x) Q F :=
  fun s hs t hst hi => h t hi (hA s t hst hi hs)

/-- **Sequences.** -/
theorem bind {f : α → Prog E R ε β} {B : β → σ → Prop} (hp : Triple S P calm i j A p Q F)
    (hf : ∀ a, Triple S P calm i j (Q a) (f a) B F) : Triple S P calm i j A (p >>= f) B F := by
  intro s hs
  refine Safe.bind ((hp s hs).mono ?_)
  intro r t _ hr
  cases r with
  | ok a => exact hf a t hr
  | error x => exact hr

/-- **A single call**: every answer keeps the invariant and the guarantee and gives `Q`. -/
theorem call {e : E} {Q : R e → σ → Prop} (hA : Stable S i A) (hQ : ∀ r, Stable S i (Q r))
    (h : ∀ t, A t → S.inv t → calm (.call i j e) t = true →
      ∀ c r u, P.answer i e c t = some (r, u) → S.inv u ∧ S.guar i t u ∧ Q r u) :
    Triple S P calm i j A (Prog.ask e) Q F := by
  intro s hs t hst hi hc c r u hu
  obtain ⟨hinv, hguar, hr⟩ := h t (hA s t hst hi hs) hi hc c r u hu
  exact ⟨hinv, hguar, fun v huv hv => hQ r u v huv hv hr⟩

/-- A failure that is caught is a result. -/
theorem attempt {B : Except ε α → σ → Prop} (h : Triple S P calm i j A p Q F)
    (hQ : ∀ a s, Q a s → B (.ok a) s) (hF : ∀ x s, F x s → B (.error x) s) :
    Triple S P calm i j A p.attempt B F' := by
  intro s hs
  have hsafe := h s hs
  clear h hs
  induction p generalizing s with
  | ok a => exact fun t ht hi => hQ a t (hsafe t ht hi)
  | err x => exact fun t ht hi => hF x t (hsafe t ht hi)
  | call e k ih =>
    intro t ht hi hc c r u hu
    obtain ⟨hinv, hguar, hrest⟩ := hsafe t ht hi hc c r u hu
    exact ⟨hinv, hguar, ih r u hrest⟩

/-- A condition that does not depend on the world splits the proof. -/
theorem ite {b : Prop} [Decidable b] {q : Prog E R ε α}
    (hp : b → Triple S P calm i j A p Q F) (hq : ¬ b → Triple S P calm i j A q Q F) :
    Triple S P calm i j A (if b then p else q) Q F := by
  split
  case isTrue h => exact hp h
  case isFalse h => exact hq h

end Triple

/-! ### What a program yields -/

/-- A preorder that the thread stays in, whoever moves. -/
structure Covers (S : Spec ι σ) (i : ι) (L : σ → σ → Prop) : Prop where
  refl : ∀ s, L s s
  trans : ∀ {s t u}, L s t → L t u → L s u
  rely : ∀ {s t}, S.rely i s t → S.inv t → L s t
  guar : ∀ {s t}, S.guar i s t → S.inv t → L s t

/-- Started in `s`, `p` keeps the terms, and what it yields satisfies `Q`. -/
def Yields (S : Spec ι σ) (P : Machine ι E R ε σ C J M) (calm : Label ι E J M → σ → Bool) (i : ι)
    (j : Option J) (p : Prog E R ε α) (Q : α → σ → Prop) (s : σ) : Prop :=
  S.Safe P calm i j p (fun r t => ∀ a, r = .ok a → Q a t) s

/-- Where a program ends lies ahead of where it was started. -/
theorem Safe.ahead {L : σ → σ → Prop} (hL : Covers S i L) (h : S.Safe P calm i j p Q s) :
    S.Safe P calm i j p (fun r t => Q r t ∧ L s t) s := by
  suffices hgen : ∀ s₀, L s₀ s → S.Safe P calm i j p (fun r t => Q r t ∧ L s₀ t) s from
    hgen s (hL.refl s)
  intro s₀ hs
  induction p generalizing s with
  | ok a | err x => exact fun t ht hi => ⟨h t ht hi, hL.trans hs (hL.rely ht hi)⟩
  | call e k ih =>
    intro t ht hi hc c r u hu
    obtain ⟨hinv, hguar, hrest⟩ := h t ht hi hc c r u hu
    exact ⟨hinv, hguar,
      ih r hrest (hL.trans hs (hL.trans (hL.rely ht hi) (hL.guar hguar hinv)))⟩

namespace Yields

variable {L : σ → σ → Prop} {p : Prog E R ε α} {Q Q' : α → σ → Prop}

theorem mono (h : Yields S P calm i j p Q s) (hQ : ∀ a t, S.inv t → Q a t → Q' a t) :
    Yields S P calm i j p Q' s :=
  Safe.mono h fun _ t hi hr a ha => hQ a t hi (hr a ha)

theorem pure {a : α} (h : ∀ t, S.rely i s t → S.inv t → Q a t) :
    Yields S P calm i j (Pure.pure a) Q s := by
  intro t ht hi b hb
  obtain rfl : a = b := by simpa using hb
  exact h t ht hi

theorem err {x : ε} : Yields S P calm i j (.err x) Q s := by
  intro t _ _ b hb
  cases hb

/-- **Sequences**: the rest starts from a world that lies ahead. -/
theorem bind (hL : Covers S i L) {f : α → Prog E R ε β} {B : β → σ → Prop}
    (hp : Yields S P calm i j p Q s)
    (hf : ∀ a t, L s t → S.inv t → Q a t → Yields S P calm i j (f a) B t) :
    Yields S P calm i j (p >>= f) B s := by
  refine Safe.bind ((Safe.ahead hL hp).mono ?_)
  intro r t hi hr
  cases r with
  | ok a => exact hf a t hr.2 hi (hr.1 a rfl)
  | error x =>
    intro b hb
    cases hb

/-- A failure that is caught is a result. -/
theorem attempt {B : Except ε α → σ → Prop} (hp : S.Safe P calm i j p B s) :
    Yields S P calm i j p.attempt B s := by
  induction p generalizing s with
  | ok a =>
    intro t ht hi b hb
    obtain rfl : Except.ok a = b := by simpa using hb
    exact hp t ht hi
  | err x =>
    intro t ht hi b hb
    obtain rfl : Except.error x = b := by simpa using hb
    exact hp t ht hi
  | call e k ih =>
    intro t ht hi hc c r u hu
    obtain ⟨hinv, hguar, hrest⟩ := hp t ht hi hc c r u hu
    exact ⟨hinv, hguar, ih r hrest⟩

theorem ite {b : Prop} [Decidable b] {q : Prog E R ε α} (hp : b → Yields S P calm i j p Q s)
    (hq : ¬ b → Yields S P calm i j q Q s) :
    Yields S P calm i j (if b then p else q) Q s := by
  split
  case isTrue h => exact hp h
  case isFalse h => exact hq h

end Yields

/-! ### Interleavings -/

/-- Every thread is in the middle of something safe. -/
def AllSafe (S : Spec ι σ) (P : Machine ι E R ε σ C J M) (calm : Label ι E J M → σ → Bool)
    (st : State ι E R ε σ J) : Prop :=
  ∀ i, S.Safe P calm i (st.job i) (st.thread i) (fun _ _ => True) st.world

theorem AllSafe.idle (s : σ) : AllSafe S P calm (State.idle s : State ι E R ε σ J) :=
  fun _ _ _ _ => trivial

/-- The terms are met: jobs are safe from every world that satisfies the invariant, and the moves
of the world keep the invariant and what every thread relies on. -/
structure Met (S : Spec ι σ) (P : Machine ι E R ε σ C J M)
    (calm : Label ι E J M → σ → Bool) : Prop where
  body : ∀ i j s, S.inv s → calm (.start i j) s = true →
    S.Safe P calm i (some j) (P.body i j) (fun _ _ => True) s
  move : ∀ m s t, S.inv s → calm (.env m) s = true → P.move m s = some t →
    S.inv t ∧ ∀ i, S.rely i s t

variable [DecidableEq ι] {st st' : State ι E R ε σ J}

theorem Met.next (hmet : Met S P calm) {m : Move ι C J M} (hinv : S.inv st.world)
    (hsafe : AllSafe S P calm st) (h : P.next calm st m = some st') :
    S.inv st'.world ∧ AllSafe S P calm st' := by
  cases m with
  | start i j =>
    simp only [Machine.next, Option.ite_none_right_eq_some, Option.some.injEq,
      Bool.and_eq_true] at h
    obtain ⟨⟨_, hc⟩, rfl⟩ := h
    refine ⟨hinv, fun k => ?_⟩
    by_cases hk : k = i
    · subst hk
      simpa using hmet.body k j st.world hinv hc
    · simpa [hk] using hsafe k
  | call i c =>
    simp only [Machine.next] at h
    split at h
    case h_2 => cases h
    case h_1 e k hthread =>
      simp only [Option.ite_none_right_eq_some, Option.map_eq_some_iff] at h
      obtain ⟨hc, ⟨r, u⟩, hu, rfl⟩ := h
      have hcall := hsafe i
      rw [hthread] at hcall
      obtain ⟨hinv', hguar, hrest⟩ :=
        hcall st.world (S.rely_refl i _) hinv hc c r u hu
      refine ⟨hinv', fun l => ?_⟩
      by_cases hl : l = i
      · subst hl
        simpa using hrest
      · -- the other threads see one guaranteed step
        simpa [hl] using (hsafe l).stable (S.guar_rely (Ne.symm hl) hguar)
  | env m =>
    simp only [Machine.next, Option.ite_none_right_eq_some, Option.map_eq_some_iff] at h
    obtain ⟨hc, t, ht, rfl⟩ := h
    obtain ⟨hinv', hrely⟩ := hmet.move m st.world t hinv hc ht
    exact ⟨hinv', fun i => (hsafe i).stable (hrely i)⟩

variable {ms : List (Move ι C J M)}

theorem allSafe_of_runs (hmet : Met S P calm) :
    ∀ {st st' : State ι E R ε σ J}, S.inv st.world → AllSafe S P calm st →
      P.runs calm st ms = some st' → S.inv st'.world ∧ AllSafe S P calm st' := by
  induction ms with
  | nil =>
    intro st st' hinv hsafe h
    obtain rfl : st = st' := by simpa [Machine.runs] using h
    exact ⟨hinv, hsafe⟩
  | cons m ms ih =>
    intro st st' hinv hsafe h
    obtain ⟨st₁, hnext, hrest⟩ := (P.runs_cons_eq_some calm).1 h
    obtain ⟨hinv₁, hsafe₁⟩ := hmet.next hinv hsafe hnext
    exact ih hinv₁ hsafe₁ hrest

/-- **Threads that are safe one by one keep the invariant in every interleaving.** -/
theorem inv_of_runs (hmet : Met S P calm) (hinv : S.inv st.world) (hsafe : AllSafe S P calm st)
    (h : P.runs calm st ms = some st') : S.inv st'.world :=
  (allSafe_of_runs hmet hinv hsafe h).1

/-- **In every interleaving, each call keeps the guarantee of its thread.** -/
theorem guar_of_runs (hmet : Met S P calm) {st₁ st₂ : State ι E R ε σ J} {c : C}
    (hinv : S.inv st.world) (hsafe : AllSafe S P calm st) (h : P.runs calm st ms = some st₁)
    (hnext : P.next calm st₁ (.call i c) = some st₂) : S.guar i st₁.world st₂.world := by
  obtain ⟨hinv₁, hsafe₁⟩ := allSafe_of_runs hmet hinv hsafe h
  simp only [Machine.next] at hnext
  split at hnext
  case h_2 => cases hnext
  case h_1 e k hthread =>
    simp only [Option.ite_none_right_eq_some, Option.map_eq_some_iff] at hnext
    obtain ⟨hc, ⟨r, u⟩, hu, rfl⟩ := hnext
    have hcall := hsafe₁ i
    rw [hthread] at hcall
    exact (hcall st₁.world (S.rely_refl i _) hinv₁ hc c r u hu).2.1

end Spec

end Interact
