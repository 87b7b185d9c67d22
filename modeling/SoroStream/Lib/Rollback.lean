import Mathlib.Logic.Basic
import Mathlib.Order.Defs.Unbundled
import Mathlib.Tactic.Common

namespace Lib.Rollback

variable {ρ ε σ α β γ : Type}

/-- How a transaction ends. A typed error still carries the writes made before
it: undoing them is the host's business, not the program's. -/
inductive Outcome (ε σ α : Type)
  | ok (value : α) (state : σ)
  | err (error : ε) (state : σ)
  | trap

namespace Outcome

/-- The state the host keeps: a call that errs or traps is rolled back. -/
def commit (s : σ) : Outcome ε σ α → σ
  | .ok _ t => t
  | .err _ _ => s
  | .trap => s

def value? : Outcome ε σ α → Option α
  | .ok a _ => some a
  | .err _ _ => none
  | .trap => none

@[simp] theorem commit_ok (s t : σ) (a : α) : commit (ε := ε) s (.ok a t) = t := rfl
@[simp] theorem commit_err (s t : σ) (e : ε) : commit (α := α) s (.err e t) = s := rfl
@[simp] theorem commit_trap (s : σ) : commit s (.trap : Outcome ε σ α) = s := rfl

theorem value?_eq_some {o : Outcome ε σ α} {a : α} : o.value? = some a ↔ ∃ t, o = .ok a t := by
  cases o <;> simp [value?]

theorem ok_commit {o : Outcome ε σ α} {a : α} (h : o.value? = some a) (s : σ) : o = .ok a (o.commit s) := by
  obtain ⟨t, rfl⟩ := value?_eq_some.mp h
  rfl

theorem commit_of_value?_none {o : Outcome ε σ α} (h : o.value? = none) (s : σ) : o.commit s = s := by
  cases o with
  | ok a t => simp [value?] at h
  | err e t => rfl
  | trap => rfl

end Outcome

def Prog (ρ ε σ α : Type) := ρ → σ → Outcome ε σ α

namespace Prog

instance : Monad (Prog ρ ε σ) where
  pure a := fun _ s => .ok a s
  bind x f := fun r s => match x r s with
    | .ok a t => f a r t
    | .err e t => .err e t
    | .trap => .trap

def read (f : ρ → σ → α) : Prog ρ ε σ α := fun r s => .ok (f r s) s

def update (f : ρ → σ → σ) : Prog ρ ε σ Unit := fun r s => .ok () (f r s)

def fail (e : ε) : Prog ρ ε σ α := fun _ s => .err e s

def halt : Prog ρ ε σ α := fun _ _ => .trap

def failIf (c : Prop) [Decidable c] (e : ε) : Prog ρ ε σ Unit := if c then fail e else pure ()

def haltIf (c : Prop) [Decidable c] : Prog ρ ε σ Unit := if c then halt else pure ()

def okOr (e : ε) : Option α → Prog ρ ε σ α
  | some a => pure a
  | none => fail e

def okOrHalt : Option α → Prog ρ ε σ α
  | some a => pure a
  | none => halt

/-- Run a block whose error is a value for the rest of the program. There is no
rollback at this point. -/
def attempt (x : Prog ρ ε σ α) : Prog ρ ε σ (Except ε α) := fun r s => match x r s with
  | .ok a t => .ok (.ok a) t
  | .err e t => .ok (.error e) t
  | .trap => .trap

/-- A guarded call to another program: its failure undoes only its own writes. -/
def tryCall (x : Prog ρ ε σ α) : Prog ρ ε σ Unit := fun r s => .ok () ((x r s).commit s)

def each (f : α → Prog ρ ε σ β) : List α → Prog ρ ε σ (List β)
  | [] => pure []
  | a :: as => do
      let b ← f a
      let bs ← each f as
      pure (b :: bs)

variable {r : ρ} {s t : σ} {a b : α}

@[simp] theorem pure_apply : (pure a : Prog ρ ε σ α) r s = .ok a s := rfl

@[simp] theorem pure_ok : (pure a : Prog ρ ε σ α) r s = .ok b t ↔ a = b ∧ s = t := by
  simp

/-- Successful runs of a sequence come apart into successful runs of its parts. -/
@[simp] theorem bind_ok {x : Prog ρ ε σ α} {f : α → Prog ρ ε σ β} {b : β} :
    (x >>= f) r s = .ok b t ↔ ∃ a u, x r s = .ok a u ∧ f a r u = .ok b t := by
  simp only [bind]
  cases x r s <;> simp

theorem bind_apply {x : Prog ρ ε σ α} {f : α → Prog ρ ε σ β} (h : x r s = .ok a t) :
    (x >>= f) r s = f a r t := by
  simp only [bind, h]

theorem bind_err {x : Prog ρ ε σ α} {f : α → Prog ρ ε σ β} {e : ε} (h : x r s = .err e t) :
    (x >>= f) r s = .err e t := by
  simp only [bind, h]

theorem bind_trap {x : Prog ρ ε σ α} {f : α → Prog ρ ε σ β} (h : x r s = .trap) : (x >>= f) r s = .trap := by
  simp only [bind, h]

@[simp] theorem map_ok {x : Prog ρ ε σ α} {f : α → β} {b : β} :
    (f <$> x) r s = .ok b t ↔ ∃ a, x r s = .ok a t ∧ f a = b := by
  change (x >>= fun a => pure (f a)) r s = .ok b t ↔ _
  simp only [bind_ok, pure_ok]
  constructor
  · rintro ⟨a, u, hx, hb, rfl⟩
    exact ⟨a, hx, hb⟩
  · rintro ⟨a, hx, hb⟩
    exact ⟨a, t, hx, hb, rfl⟩

@[simp] theorem read_ok {f : ρ → σ → α} :
    (read f : Prog ρ ε σ α) r s = .ok a t ↔ f r s = a ∧ s = t := by
  simp [read]

@[simp] theorem update_ok {f : ρ → σ → σ} {u : Unit} :
    (update f : Prog ρ ε σ Unit) r s = .ok u t ↔ f r s = t := by
  simp [update]

@[simp] theorem fail_ok {e : ε} : (fail e : Prog ρ ε σ α) r s = .ok a t ↔ False := by
  simp [fail]

@[simp] theorem halt_ok : (halt : Prog ρ ε σ α) r s = .ok a t ↔ False := by
  simp [halt]

@[simp] theorem failIf_ok {c : Prop} [Decidable c] {e : ε} {u : Unit} :
    (failIf c e : Prog ρ ε σ Unit) r s = .ok u t ↔ ¬c ∧ s = t := by
  by_cases h : c <;> simp [failIf, h]

@[simp] theorem haltIf_ok {c : Prop} [Decidable c] {u : Unit} :
    (haltIf c : Prog ρ ε σ Unit) r s = .ok u t ↔ ¬c ∧ s = t := by
  by_cases h : c <;> simp [haltIf, h]

@[simp] theorem okOr_ok {e : ε} {o : Option α} :
    (okOr e o : Prog ρ ε σ α) r s = .ok a t ↔ o = some a ∧ s = t := by
  cases o <;> simp [okOr]

@[simp] theorem okOrHalt_ok {o : Option α} :
    (okOrHalt o : Prog ρ ε σ α) r s = .ok a t ↔ o = some a ∧ s = t := by
  cases o <;> simp [okOrHalt]

theorem attempt_ok {x : Prog ρ ε σ α} {v : Except ε α} :
    attempt x r s = .ok v t ↔
      (∃ a, x r s = .ok a t ∧ v = .ok a) ∨ (∃ e, x r s = .err e t ∧ v = .error e) := by
  simp only [attempt]
  cases x r s <;> simp [eq_comm, and_comm]

@[simp] theorem tryCall_ok {x : Prog ρ ε σ α} {u : Unit} :
    tryCall x r s = .ok u t ↔ (x r s).commit s = t := by
  simp [tryCall]

@[simp] theorem ite_ok {c : Prop} [Decidable c] {x y : Prog ρ ε σ α} :
    (if c then x else y) r s = .ok a t ↔ (c ∧ x r s = .ok a t) ∨ (¬c ∧ y r s = .ok a t) := by
  by_cases h : c <;> simp [h]

@[simp] theorem each_nil {f : α → Prog ρ ε σ β} {bs : List β} :
    each f [] r s = .ok bs t ↔ bs = [] ∧ s = t := by
  simp [each, eq_comm]

@[simp] theorem each_cons {f : α → Prog ρ ε σ β} {as : List α} {bs : List β} :
    each f (a :: as) r s = .ok bs t ↔
      ∃ b u cs, f a r s = .ok b u ∧ each f as r u = .ok cs t ∧ bs = b :: cs := by
  simp only [each, bind_ok, pure_ok]
  constructor
  · rintro ⟨b, u, hb, cs, v, hc, rfl, rfl⟩
    exact ⟨b, u, cs, hb, hc, rfl⟩
  · rintro ⟨b, u, cs, hb, hc, rfl⟩
    exact ⟨b, u, hb, cs, t, hc, rfl, rfl⟩

theorem bind_eq_err {x : Prog ρ ε σ α} {f : α → Prog ρ ε σ β} {e : ε} :
    (x >>= f) r s = .err e t ↔ x r s = .err e t ∨ ∃ a u, x r s = .ok a u ∧ f a r u = .err e t := by
  simp only [bind]
  cases x r s <;> simp

theorem pure_err {e : ε} : (pure a : Prog ρ ε σ α) r s = .err e t ↔ False := by
  simp

theorem read_err {f : ρ → σ → α} {e : ε} : (read f : Prog ρ ε σ α) r s = .err e t ↔ False := by
  simp [read]

theorem update_err {f : ρ → σ → σ} {e : ε} : (update f : Prog ρ ε σ Unit) r s = .err e t ↔ False := by
  simp [update]

theorem failIf_err {c : Prop} [Decidable c] {e e' : ε} :
    (failIf c e : Prog ρ ε σ Unit) r s = .err e' t ↔ c ∧ e = e' ∧ s = t := by
  by_cases h : c <;> simp [failIf, fail, h]

theorem haltIf_err {c : Prop} [Decidable c] {e : ε} :
    (haltIf c : Prog ρ ε σ Unit) r s = .err e t ↔ False := by
  by_cases h : c <;> simp [haltIf, halt, h]

theorem okOr_err {e e' : ε} {o : Option α} :
    (okOr e o : Prog ρ ε σ α) r s = .err e' t ↔ o = none ∧ e = e' ∧ s = t := by
  cases o <;> simp [okOr, fail]

section

variable {f : Unit → Prog ρ ε σ β} {g : α → Prog ρ ε σ β} {c : Prop} [Decidable c] {o : Option α} {e e' : ε} {v : β}

theorem read_bind {h : ρ → σ → α} : (read h >>= g) r s = g (h r s) r s := rfl

theorem seq_ok {x : Prog ρ ε σ Unit} : (x >>= f) r s = .ok v t ↔ ∃ u, x r s = .ok () u ∧ f () r u = .ok v t := by
  rw [bind_ok]
  exact ⟨fun ⟨(), h⟩ => h, fun h => ⟨(), h⟩⟩

theorem okOr_bind_ok : (okOr e o >>= g) r s = .ok v t ↔ ∃ a, o = some a ∧ g a r s = .ok v t := by
  cases o <;> simp [okOr]

theorem okOrHalt_bind_ok : (okOrHalt o >>= g) r s = .ok v t ↔ ∃ a, o = some a ∧ g a r s = .ok v t := by
  cases o <;> simp [okOrHalt]

theorem failIf_bind_ok : (failIf c e >>= f) r s = .ok v t ↔ ¬c ∧ f () r s = .ok v t := by
  by_cases h : c <;> simp [failIf, fail, bind, h]

theorem failIf_bind_err :
    (failIf c e >>= f) r s = .err e' t ↔ (c ∧ e = e' ∧ s = t) ∨ ¬c ∧ f () r s = .err e' t := by
  by_cases h : c <;> simp [failIf, fail, bind, h]

theorem okOr_bind_err :
    (okOr e o >>= g) r s = .err e' t ↔ (o = none ∧ e = e' ∧ s = t) ∨ ∃ a, o = some a ∧ g a r s = .err e' t := by
  cases o <;> simp [okOr, fail, bind]

end

/-- The loop rule for relations between the first and the last state. -/
theorem each_rel {f : α → Prog ρ ε σ β} (R : σ → σ → Prop) (hrefl : ∀ s, R s s)
    (htrans : ∀ {s t u}, R s t → R t u → R s u) {as : List α}
    (hstep : ∀ a ∈ as, ∀ s b t, f a r s = .ok b t → R s t)
    {bs : List β} (h : each f as r s = .ok bs t) : R s t := by
  induction as generalizing s bs with
  | nil =>
      obtain ⟨-, rfl⟩ := each_nil.mp h
      exact hrefl _
  | cons a as ih =>
      obtain ⟨b, u, cs, hb, hc, -⟩ := each_cons.mp h
      have hfirst := hstep a (by simp) s b u hb
      exact htrans hfirst (ih (fun a ha => hstep a (by simp [ha])) hc)

/-- The loop rule for an invariant that each pass may read and must keep. -/
theorem each_inv {f : α → Prog ρ ε σ β} (I : σ → Prop) {as : List α}
    (hstep : ∀ a ∈ as, ∀ s b t, I s → f a r s = .ok b t → I t)
    {bs : List β} (hs : I s) (h : each f as r s = .ok bs t) : I t := by
  induction as generalizing s bs with
  | nil =>
      obtain ⟨-, rfl⟩ := each_nil.mp h
      exact hs
  | cons a as ih =>
      obtain ⟨b, u, cs, hb, hc, -⟩ := each_cons.mp h
      exact ih (fun a ha => hstep a (by simp [ha])) (hstep a (by simp) s b u hs hb) hc

/-- A loop in which one item turns `I` into `J`: `I` is kept before it, and `J` from then on. -/
theorem each_turn {f : α → Prog ρ ε σ β} (I J : σ → Prop) {as : List α} (hmem : a ∈ as)
    (hbefore : ∀ b ∈ as, b ≠ a → ∀ s c t, I s → f b r s = .ok c t → I t)
    (hturn : ∀ s c t, I s → f a r s = .ok c t → J t)
    (hafter : ∀ b ∈ as, ∀ s c t, J s → f b r s = .ok c t → J t)
    {bs : List β} (hs : I s) (h : each f as r s = .ok bs t) : J t := by
  induction as generalizing s bs with
  | nil => exact absurd hmem List.not_mem_nil
  | cons b as ih =>
      obtain ⟨c, u, cs, hb, hc, -⟩ := each_cons.mp h
      by_cases hne : b = a
      · subst hne
        exact each_inv J (fun b hb => hafter b (List.mem_cons_of_mem _ hb)) (hturn s c u hs hb) hc
      · exact ih ((List.mem_cons.mp hmem).resolve_left (Ne.symm hne))
          (fun b hb => hbefore b (List.mem_cons_of_mem _ hb)) (fun b hb => hafter b (List.mem_cons_of_mem _ hb))
          (hbefore b (List.mem_cons_self ..) hne s c u hs hb) hc

def Keeps (r : ρ) (R : σ → σ → Prop) (x : Prog ρ ε σ α) : Prop := ∀ ⦃s a t⦄, x r s = .ok a t → R s t

section

variable {R : σ → σ → Prop}

theorem keeps_update {f : ρ → σ → σ} (h : ∀ s, R s (f r s)) : Keeps r R (update f : Prog ρ ε σ Unit) := by
  rintro s _ _ hs
  exact update_ok.mp hs ▸ h s

theorem keeps_halt : Keeps r R (halt : Prog ρ ε σ α) := by
  rintro s _ _ h
  exact (halt_ok.mp h).elim

theorem keeps_ite {c : Prop} [Decidable c] {x y : Prog ρ ε σ α} (hx : Keeps r R x) (hy : Keeps r R y) :
    Keeps r R (if c then x else y) := by
  split
  · exact hx
  · exact hy

variable [IsPreorder σ R]

theorem keeps_pure : Keeps r R (pure a : Prog ρ ε σ α) := by
  rintro s _ _ h
  obtain ⟨-, rfl⟩ := pure_ok.mp h
  exact refl s

theorem keeps_bind {x : Prog ρ ε σ α} {f : α → Prog ρ ε σ β} (hx : Keeps r R x)
    (hf : ∀ a, Keeps r R (f a)) : Keeps r R (x >>= f) := by
  rintro s b t h
  obtain ⟨a, u, h, h'⟩ := bind_ok.mp h
  exact Trans.trans (hx h) (hf a h')

theorem keeps_read {f : ρ → σ → α} : Keeps r R (read f : Prog ρ ε σ α) := by
  rintro s _ _ h
  obtain ⟨-, rfl⟩ := read_ok.mp h
  exact refl s

/-- What every successful run keeps, the host keeps in any case. -/
theorem Keeps.commit {x : Prog ρ ε σ α} (h : Keeps r R x) (s : σ) : R s ((x r s).commit s) := by
  cases hr : x r s with
  | ok a t => exact h hr
  | err e t => exact refl s
  | trap => exact refl s

theorem keeps_tryCall {x : Prog ρ ε σ α} (hx : Keeps r R x) : Keeps r R (tryCall x) := by
  rintro s _ t h
  exact tryCall_ok.mp h ▸ hx.commit s

theorem keeps_failIf {c : Prop} [Decidable c] {e : ε} : Keeps r R (failIf c e : Prog ρ ε σ Unit) := by
  rintro s _ _ h
  obtain ⟨-, rfl⟩ := failIf_ok.mp h
  exact refl s

theorem keeps_haltIf {c : Prop} [Decidable c] : Keeps r R (haltIf c : Prog ρ ε σ Unit) := by
  rintro s _ _ h
  obtain ⟨-, rfl⟩ := haltIf_ok.mp h
  exact refl s

theorem keeps_okOr {e : ε} {o : Option α} : Keeps r R (okOr e o : Prog ρ ε σ α) := by
  rintro s _ _ h
  obtain ⟨-, rfl⟩ := okOr_ok.mp h
  exact refl s

theorem keeps_okOrHalt {o : Option α} : Keeps r R (okOrHalt o : Prog ρ ε σ α) := by
  rintro s _ _ h
  obtain ⟨-, rfl⟩ := okOrHalt_ok.mp h
  exact refl s

end

def Spares (e : ε) (x : Prog ρ ε σ α) : Prop := ∀ r s t, x r s ≠ .err e t

section

variable {e e' : ε}

theorem spares_pure : Spares e (pure a : Prog ρ ε σ α) := fun _ _ _ h => pure_err.mp h

theorem spares_read {f : ρ → σ → α} : Spares e (read f : Prog ρ ε σ α) := fun _ _ _ h => read_err.mp h

theorem spares_update {f : ρ → σ → σ} : Spares e (update f : Prog ρ ε σ Unit) := fun _ _ _ h => update_err.mp h

theorem spares_haltIf {c : Prop} [Decidable c] : Spares e (haltIf c : Prog ρ ε σ Unit) :=
  fun _ _ _ h => haltIf_err.mp h

theorem spares_okOrHalt {o : Option α} : Spares e (okOrHalt o : Prog ρ ε σ α) := by
  intro r s t h
  cases o <;> simp [okOrHalt, halt] at h

theorem spares_failIf {c : Prop} [Decidable c] (hne : e' ≠ e) : Spares e (failIf c e' : Prog ρ ε σ Unit) :=
  fun _ _ _ h => hne (failIf_err.mp h).2.1

theorem spares_okOr {o : Option α} (hne : e' ≠ e) : Spares e (okOr e' o : Prog ρ ε σ α) :=
  fun _ _ _ h => hne (okOr_err.mp h).2.1

theorem spares_tryCall {x : Prog ρ ε σ α} : Spares e (tryCall x) := by
  intro r s t h
  simp [tryCall] at h

theorem spares_bind {x : Prog ρ ε σ α} {f : α → Prog ρ ε σ β} (hx : Spares e x) (hf : ∀ a, Spares e (f a)) :
    Spares e (x >>= f) := by
  intro r s t h
  rcases bind_eq_err.mp h with h | ⟨a, u, -, h⟩
  · exact hx r s t h
  · exact hf a r u t h

theorem spares_ite {c : Prop} [Decidable c] {x y : Prog ρ ε σ α} (hx : Spares e x) (hy : Spares e y) :
    Spares e (if c then x else y) := by
  split
  · exact hx
  · exact hy

theorem spares_each {f : α → Prog ρ ε σ β} (hf : ∀ a, Spares e (f a)) (as : List α) : Spares e (each f as) := by
  induction as with
  | nil => exact spares_pure
  | cons a as ih => exact spares_bind (hf a) fun _ => spares_bind ih fun _ => spares_pure

/-- Where the rest spares an error, it can only come from the first part. -/
theorem bind_err_of_spares {x : Prog ρ ε σ α} {f : α → Prog ρ ε σ β} (hf : ∀ a, Spares e (f a)) :
    (∃ t, (x >>= f) r s = .err e t) ↔ ∃ t, x r s = .err e t := by
  constructor
  · rintro ⟨t, h⟩
    rcases bind_eq_err.mp h with h | ⟨a, u, -, h⟩
    · exact ⟨t, h⟩
    · exact absurd h (hf a r u t)
  · rintro ⟨t, h⟩
    exact ⟨t, bind_err h⟩

end

end Prog

end Lib.Rollback
