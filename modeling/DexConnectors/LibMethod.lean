import DexConnectors.LibProgram
/-!
# LibMethod — methods that return or raise

A method is a program that ends with a value or an exception.  `Ensures` is the obligation of a thread that runs one:
it is safe, it leaves the thread what the thread may count on, and what it returns satisfies a postcondition.  There is
one rule for each way a method is put together.  `Yields` has a postcondition for each way to end instead, and nothing the
thread counts on across its own operations.  `Returns` and `Raises` are a method run alone.
-/
namespace Lib

variable {Op : Type} {Ans : Op → Type} {E α β σ ι : Type}

/-- A sequence that succeeds, succeeds in both its parts. -/
theorem bind_eq_ok {x : Except E α} {f : α → Except E β} {b : β} : (x >>= f) = .ok b ↔ ∃ a, x = .ok a ∧ f a = .ok b := by
  cases x with
  | error e => exact ⟨fun h => (by cases h), fun ⟨_, h, _⟩ => (by cases h)⟩
  | ok a => exact ⟨fun h => ⟨a, rfl, h⟩, fun ⟨_, h, h'⟩ => (by cases h; exact h')⟩

/-- One that fails, fails in one of them. -/
theorem bind_eq_error {x : Except E α} {f : α → Except E β} {e : E} :
    (x >>= f) = .error e ↔ x = .error e ∨ ∃ a, x = .ok a ∧ f a = .error e := by
  cases x with
  | error e' => exact ⟨fun h => .inl (by cases h; rfl), fun h => h.elim (fun h => (by cases h; rfl)) fun ⟨_, h, _⟩ => (by cases h)⟩
  | ok a => exact ⟨fun h => .inr ⟨a, rfl, h⟩, fun h => h.elim (fun h => (by cases h)) fun ⟨_, h, h'⟩ => (by cases h; exact h')⟩

/-- A program that ends with a value or an exception. -/
abbrev Method (Op : Type) (Ans : Op → Type) (E : Type) := ExceptT E (Prog Op Ans)

namespace Method

/-- One operation. -/
def act (o : Op) : Method Op Ans E (Ans o) := ExceptT.lift (Prog.perform o)

def orRaise (r : Except E α) : Method Op Ans E α := ExceptT.mk (.ret r)

/-- A method with its exception caught. -/
def attempt (m : Method Op Ans E α) : Method Op Ans E (Except E α) := ExceptT.lift m.run

/-! ## The operations of a method -/

section

variable {φ : Op → Prop}

theorem performs_seq {m : Method Op Ans E α} {f : α → Method Op Ans E β} (h : m.run.Performs φ)
    (hf : ∀ a, (f a).run.Performs φ) : (m >>= f).run.Performs φ := by
  refine Prog.performs_bind (fun r => ?_) h
  cases r with
  | ok a => exact hf a
  | error e => trivial

theorem performs_catch {m : Method Op Ans E α} {f : Except E α → Method Op Ans E β} (h : m.run.Performs φ)
    (hf : ∀ r, (f r).run.Performs φ) : (attempt m >>= f).run.Performs φ := by
  refine performs_seq (Prog.performs_bind (fun r => ?_) h) hf
  trivial

theorem performs_act {o : Op} (h : φ o) : (act o : Method Op Ans E (Ans o)).run.Performs φ := ⟨h, fun _ => trivial⟩

theorem performs_map {m : Method Op Ans E α} {f : α → β} (h : m.run.Performs φ) : (f <$> m).run.Performs φ := by
  refine Prog.performs_bind (fun r => ?_) h
  cases r <;> trivial

end

/-! ## Under interference -/

variable (P : Protocol Op Ans σ ι) {i : ι} {Q : α → σ → Prop} {Q' : β → σ → Prop} {s : σ}

/-- **A method that thread `i` may run from `s`**: what it returns satisfies `Q`. -/
def Ensures (i : ι) (Q : α → σ → Prop) (m : Method Op Ans E α) (s : σ) : Prop :=
  P.Safe i (fun r s' => P.rely i s s' ∧ ∀ a, r = .ok a → Q a s') m.run s

variable {P}

theorem ensures_orRaise {r : Except E α} (h : ∀ a s', r = .ok a → P.rely i s s' → P.inv s' → Q a s') :
    Ensures P i Q (orRaise r) s :=
  fun s' hr hi => ⟨hr, fun a ha => h a s' ha hr hi⟩

theorem ensures_pure {a : α} (h : ∀ s', P.rely i s s' → P.inv s' → Q a s') :
    Ensures (E := E) P i Q (pure a) s :=
  ensures_orRaise (r := .ok a) (fun b s' hb hr hi => by cases hb; exact h s' hr hi)

theorem ensures_throw {e : E} : Ensures (E := E) P i Q (throw e) s := ensures_orRaise (r := .error e) (fun _ _ h => by cases h)

/-- **One operation**: it keeps the invariant, the promise and what the thread itself counts on. -/
theorem ensures_act {o : Op} {Q : Ans o → σ → Prop}
    (hstep : ∀ s₁ a s₂, P.rely i s s₁ → P.inv s₁ → P.step i o s₁ a s₂ → P.inv s₂ ∧ P.guar i s₁ s₂ ∧ P.rely i s₁ s₂)
    (hpost : ∀ s₁ a s₂ s₃, P.rely i s s₁ → P.inv s₁ → P.step i o s₁ a s₂ → P.rely i s₂ s₃ → P.inv s₃ → Q a s₃) :
    Ensures (E := E) P i Q (act o) s := by
  intro s₁ hr₁ hi₁ a s₂ hs
  obtain ⟨hinv, hguar, hself⟩ := hstep s₁ a s₂ hr₁ hi₁ hs
  refine ⟨hinv, hguar, fun s₃ hr₃ hi₃ => ⟨P.rely_trans i (P.rely_trans i hr₁ hself) hr₃, ?_⟩⟩
  intro b hb
  cases hb
  exact hpost s₁ a s₂ s₃ hr₁ hi₁ hs hr₃ hi₃

theorem Ensures.mono {Q₂ : α → σ → Prop} {m : Method Op Ans E α} (h : Ensures P i Q m s) (hQ : ∀ a s', Q a s' → Q₂ a s') :
    Ensures P i Q₂ m s :=
  Protocol.Safe.mono (fun _ s' hr => ⟨hr.1, fun a ha => hQ a s' (hr.2 a ha)⟩) h

/-- **Sequencing.** -/
theorem Ensures.seq {m : Method Op Ans E α} {f : α → Method Op Ans E β} (h : Ensures P i Q m s)
    (hf : ∀ a s', P.rely i s s' → P.inv s' → Q a s' → Ensures P i Q' (f a) s') (hinv : P.inv s) :
    Ensures P i Q' (m >>= f) s := by
  refine Protocol.Safe.bind h (fun r s' hi hq => ?_) hinv
  cases r with
  | ok a =>
    refine Protocol.Safe.mono ?_ (hf a s' hq.1 hi (hq.2 a rfl))
    exact fun r s'' hr => ⟨P.rely_trans i hq.1 hr.1, hr.2⟩
  | error e => exact fun s'' hr _ => ⟨P.rely_trans i hq.1 hr, fun _ hb => by cases hb⟩

theorem Ensures.attempt {m : Method Op Ans E α} (h : Ensures P i Q m s) :
    Ensures P i (fun r s' => ∀ a, r = .ok a → Q a s') (Method.attempt m) s := by
  refine Protocol.Safe.map (f := Except.ok) (Protocol.Safe.mono ?_ h)
  rintro r s' ⟨hr, hq⟩
  refine ⟨hr, fun r' hr' a ha => ?_⟩
  cases hr'
  exact hq a ha

/-- A method with its value mapped, whatever it promises when it raises. -/
theorem safe_map {m : Method Op Ans E α} {f : α → β} {R : Except E β → σ → Prop}
    (h : P.Safe i (fun r s' => R (r.map f) s') m.run s) : P.Safe i R (f <$> m).run s := by
  have hrun : (f <$> m : Method Op Ans E β).run = m.run >>= fun r => .ret (r.map f) := by
    show m.run >>= _ = _
    congr 1
    funext r
    cases r <;> rfl
  rw [hrun]
  exact Protocol.Safe.map h

theorem Ensures.map {m : Method Op Ans E α} {f : α → β} (h : Ensures P i (fun a s' => Q' (f a) s') m s) :
    Ensures P i Q' (f <$> m) s := by
  refine safe_map (Protocol.Safe.mono ?_ h)
  rintro r s' ⟨hr, hq⟩
  refine ⟨hr, fun b hb => ?_⟩
  cases r with
  | ok a => cases hb; exact hq a rfl
  | error e => cases hb

/-- A method that goes on with a program that need not leave the thread what it counts on. -/
theorem Ensures.next {m : Method Op Ans E α} {f : α → Method Op Ans E β} {R : Except E β → σ → Prop}
    (h : Ensures P i Q m s) (herr : ∀ e s', P.rely i s s' → R (.error e) s')
    (hf : ∀ a s', P.rely i s s' → P.inv s' → Q a s' → P.Safe i R (f a).run s') (hinv : P.inv s) :
    P.Safe i R (m >>= f).run s := by
  refine Protocol.Safe.bind h (fun r s' hi hq => ?_) hinv
  cases r with
  | ok a => exact hf a s' hq.1 hi (hq.2 a rfl)
  | error e => exact fun s'' hr _ => herr e s'' (P.rely_trans i hq.1 hr)

theorem Ensures.safe {m : Method Op Ans E α} (h : Ensures P i Q m s) {R : Except E α → σ → Prop}
    (hR : ∀ r s', P.rely i s s' → (∀ a, r = .ok a → Q a s') → R r s') : P.Safe i R m.run s :=
  Protocol.Safe.mono (fun r s' hr => hR r s' hr.1 hr.2) h

/-- A caught method that is followed by another, whatever it promises when it raises. -/
theorem safe_attempt {m : Method Op Ans E α} {f : Except E α → Method Op Ans E β} {R : Except E α → σ → Prop}
    {R' : Except E β → σ → Prop} (h : P.Safe i R m.run s)
    (hf : ∀ r s', P.inv s' → R r s' → P.Safe i R' (f r).run s') (hinv : P.inv s) :
    P.Safe i R' (Method.attempt m >>= f).run s := by
  have hcaught : P.Safe i (fun x s' => ∃ r, x = Except.ok (ε := E) r ∧ R r s') (Method.attempt m).run s :=
    Protocol.Safe.map (f := Except.ok) (h.mono (fun r _ hr => ⟨r, rfl, hr⟩))
  refine Protocol.Safe.bind hcaught (fun x s' hi hx => ?_) hinv
  obtain ⟨r, rfl, hr⟩ := hx
  exact hf r s' hi hr

theorem orRaise_ok (a : α) (f : α → Method Op Ans E β) : (orRaise (.ok a) >>= f : Method Op Ans E β) = f a := rfl

theorem orRaise_error (e : E) (f : α → Method Op Ans E β) : (orRaise (.error e) >>= f : Method Op Ans E β) = throw e := rfl

/-! ## With two postconditions -/

/-- How a method ended. -/
def Ended (Q : α → σ → Prop) (X : E → σ → Prop) : Except E α → σ → Prop
  | .ok a => Q a
  | .error e => X e

variable {X X' : E → σ → Prop}

variable (P) in
/-- **A method that thread `i` may run from `s`**: it returns with `Q`, or raises with `X`. -/
def Yields (i : ι) (Q : α → σ → Prop) (X : E → σ → Prop) (m : Method Op Ans E α) (s : σ) : Prop :=
  P.Safe i (Ended Q X) m.run s

theorem yields_orRaise {r : Except E α} (h : ∀ s', P.rely i s s' → P.inv s' → Ended Q X r s') : Yields P i Q X (orRaise r) s :=
  h

theorem yields_pure {a : α} (h : ∀ s', P.rely i s s' → P.inv s' → Q a s') : Yields P i Q X (pure a) s := h

theorem yields_throw {e : E} (h : ∀ s', P.rely i s s' → P.inv s' → X e s') : Yields P i Q X (throw e) s := h

theorem yields_act {o : Op} {Q : Ans o → σ → Prop}
    (h : ∀ s₁ a s₂, P.rely i s s₁ → P.inv s₁ → P.step i o s₁ a s₂ → P.inv s₂ ∧ P.guar i s₁ s₂ ∧
      ∀ s₃, P.rely i s₂ s₃ → P.inv s₃ → Q a s₃) : Yields P i Q X (act o) s :=
  fun s₁ hr hi a s₂ hs => h s₁ a s₂ hr hi hs

theorem Yields.mono {Q₂ : α → σ → Prop} {X₂ : E → σ → Prop} {m : Method Op Ans E α} (h : Yields P i Q X m s)
    (hQ : ∀ a s', Q a s' → Q₂ a s') (hX : ∀ e s', X e s' → X₂ e s') : Yields P i Q₂ X₂ m s := by
  refine Protocol.Safe.mono (fun r s' hr => ?_) h
  cases r with
  | ok a => exact hQ a s' hr
  | error e => exact hX e s' hr

theorem Yields.seq {m : Method Op Ans E α} {f : α → Method Op Ans E β} (h : Yields P i Q X m s)
    (hf : ∀ a s', P.inv s' → Q a s' → Yields P i Q' X' (f a) s')
    (hX : ∀ e s' s'', X e s' → P.rely i s' s'' → P.inv s'' → X' e s'') (hinv : P.inv s) :
    Yields P i Q' X' (m >>= f) s := by
  refine Protocol.Safe.bind h (fun r s' hi hr => ?_) hinv
  cases r with
  | ok a => exact hf a s' hi hr
  | error e => exact fun s'' hrely hi' => hX e s' s'' hr hrely hi'

/-- A caught method goes on from either end. -/
theorem Yields.catch {m : Method Op Ans E α} {f : Except E α → Method Op Ans E β} (h : Yields P i Q X m s)
    (hf : ∀ r s', P.inv s' → Ended Q X r s' → Yields P i Q' X' (f r) s') (hinv : P.inv s) :
    Yields P i Q' X' (Method.attempt m >>= f) s :=
  safe_attempt h hf hinv

theorem Yields.map {m : Method Op Ans E α} {f : α → β} (h : Yields P i (fun a => Q' (f a)) X m s) :
    Yields P i Q' X (f <$> m) s := by
  refine safe_map (Protocol.Safe.mono (fun r s' hr => ?_) h)
  cases r with
  | ok a => exact hr
  | error e => exact hr

/-! ## Alone -/

variable {step : (o : Op) → σ → Ans o → σ → Prop} {s' : σ}

/-- **A method that runs alone and returns.** -/
def Returns (step : (o : Op) → σ → Ans o → σ → Prop) (m : Method Op Ans E α) (s : σ) (a : α) (s' : σ) : Prop :=
  Prog.Exec step m.run s (.ok a) s'

/-- **A method that runs alone and raises.** -/
def Raises (step : (o : Op) → σ → Ans o → σ → Prop) (m : Method Op Ans E α) (s : σ) (e : E) (s' : σ) : Prop :=
  Prog.Exec step m.run s (.error e) s'

theorem returns_orRaise {r : Except E α} {b : α} : Returns step (orRaise r) s b s' ↔ r = .ok b ∧ s' = s := by
  show Except.ok b = r ∧ s' = s ↔ _
  rw [eq_comm]

theorem returns_pure {a b : α} : Returns (E := E) step (pure a) s b s' ↔ b = a ∧ s' = s := by
  show Except.ok b = Except.ok a ∧ s' = s ↔ _
  simp

theorem returns_throw {e : E} {b : α} : ¬Returns (E := E) step (throw e) s b s' := by
  rintro ⟨h, -⟩
  cases h

theorem returns_act {o : Op} {a : Ans o} : Returns (E := E) step (act o) s a s' ↔ step o s a s' := by
  constructor
  · rintro ⟨b, s₁, hs, h, rfl⟩
    cases h
    exact hs
  · exact fun hs => ⟨a, s', hs, rfl, rfl⟩

theorem returns_bind {m : Method Op Ans E α} {f : α → Method Op Ans E β} {b : β} :
    Returns step (m >>= f) s b s' ↔ ∃ a s₁, Returns step m s a s₁ ∧ Returns step (f a) s₁ b s' := by
  refine (Prog.exec_bind step _ m.run s (Except.ok b) s').trans ⟨?_, ?_⟩
  · rintro ⟨r, s₁, h1, h2⟩
    cases r with
    | ok a => exact ⟨a, s₁, h1, h2⟩
    | error e => cases h2.1
  · rintro ⟨a, s₁, h1, h2⟩
    exact ⟨.ok a, s₁, h1, h2⟩

theorem returns_ite {p : Prop} [Decidable p] {m m' : Method Op Ans E α} {a : α} :
    Returns step (if p then m else m') s a s' ↔ (p ∧ Returns step m s a s') ∨ (¬p ∧ Returns step m' s a s') := by
  split <;> simp [*]

theorem returns_attempt {m : Method Op Ans E α} {r : Except E α} :
    Returns (E := E) step (attempt m) s r s' ↔ Prog.Exec step m.run s r s' := by
  refine (Prog.exec_bind step _ m.run s (Except.ok r) s').trans ⟨?_, fun h => ⟨r, s', h, rfl, rfl⟩⟩
  rintro ⟨r', s₁, h1, h2, rfl⟩
  cases h2
  exact h1

theorem raises_bind {m : Method Op Ans E α} {f : α → Method Op Ans E β} {e : E} :
    Raises step (m >>= f) s e s' ↔ Raises step m s e s' ∨ ∃ a s₁, Returns step m s a s₁ ∧ Raises step (f a) s₁ e s' := by
  refine (Prog.exec_bind step _ m.run s (Except.error e) s').trans ⟨?_, ?_⟩
  · rintro ⟨r, s₁, h1, h2⟩
    cases r with
    | ok a => exact .inr ⟨a, s₁, h1, h2⟩
    | error e' =>
      obtain ⟨h, rfl⟩ := h2
      cases h
      exact .inl h1
  · rintro (h | ⟨a, s₁, h1, h2⟩)
    · exact ⟨.error e, s', h, rfl, rfl⟩
    · exact ⟨.ok a, s₁, h1, h2⟩

theorem exec_seq {m : Method Op Ans E α} {f : α → Method Op Ans E β} {r : Except E β} :
    Prog.Exec step (m >>= f).run s r s' ↔
      (∃ a s₁, Returns step m s a s₁ ∧ Prog.Exec step (f a).run s₁ r s') ∨ ∃ e, r = .error e ∧ Raises step m s e s' := by
  cases r with
  | ok b =>
    refine returns_bind.trans ⟨.inl, fun h => h.resolve_right ?_⟩
    rintro ⟨e, he, -⟩
    cases he
  | error e =>
    refine raises_bind.trans ⟨fun h => h.elim (fun h => .inr ⟨e, rfl, h⟩) .inl, ?_⟩
    rintro (h | ⟨e', he, h⟩)
    · exact .inr h
    · cases he
      exact .inl h

theorem not_raises_act {o : Op} {e : E} : ¬Raises step (act o) s e s' := by
  rintro ⟨a, s₁, -, h, -⟩
  cases h

theorem exec_act {o : Op} {f : Ans o → Method Op Ans E β} {r : Except E β} :
    Prog.Exec step (act o >>= f).run s r s' ↔ ∃ a s₁, step o s a s₁ ∧ Prog.Exec step (f a).run s₁ r s' := by
  rw [exec_seq]
  constructor
  · rintro (⟨a, s₁, ha, h⟩ | ⟨e, -, h⟩)
    · exact ⟨a, s₁, returns_act.1 ha, h⟩
    · exact absurd h not_raises_act
  · rintro ⟨a, s₁, ha, h⟩
    exact .inl ⟨a, s₁, returns_act.2 ha, h⟩

/-! ## Alone, with one answer to every operation -/

variable {answer : (o : Op) → σ → Ans o × σ}

theorem runWith_ok {m : Method Op Ans E α} {f : α → Method Op Ans E β} {a : α} (h : m.run.runWith answer s = (.ok a, s')) :
    (m >>= f).run.runWith answer s = (f a).run.runWith answer s' := by
  refine (Prog.runWith_bind answer _ m.run s).trans ?_
  rw [h]
  rfl

theorem runWith_error {m : Method Op Ans E α} {f : α → Method Op Ans E β} {e : E} (h : m.run.runWith answer s = (.error e, s')) :
    (m >>= f).run.runWith answer s = (.error e, s') := by
  refine (Prog.runWith_bind answer _ m.run s).trans ?_
  rw [h]
  rfl

theorem runWith_act {o : Op} {f : Ans o → Method Op Ans E β} :
    (act o >>= f).run.runWith answer s = (f (answer o s).1).run.runWith answer (answer o s).2 := rfl

end Method
end Lib
