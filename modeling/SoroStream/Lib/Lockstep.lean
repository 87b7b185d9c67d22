import SoroStream.Lib.Rollback
import Mathlib.Data.Option.Basic

namespace Lib.Rollback

variable {ρ ε σ α β γ δ : Type}

/-- Two runs that end alike: well, with related values in related states, in one and the
same error, or in a trap. -/
inductive Outcome.Agree (Q : σ → σ → Prop) (V : α → β → Prop) : Outcome ε σ α → Outcome ε σ β → Prop
  | ok {a : α} {b : β} {s t : σ} (hV : V a b) (hQ : Q s t) : Agree Q V (.ok a s) (.ok b t)
  | err (e : ε) (s t : σ) : Agree Q V (.err e s) (.err e t)
  | trap : Agree Q V .trap .trap

namespace Outcome.Agree

variable {P Q : σ → σ → Prop} {V : α → β → Prop} {o : Outcome ε σ α} {o' : Outcome ε σ β} {s t : σ}

theorem value? {V : α → α → Prop} {o o' : Outcome ε σ α} (h : o.Agree Q V o') (hV : ∀ a b, V a b → a = b) :
    o.value? = o'.value? := by
  cases h with
  | ok hab => exact congrArg some (hV _ _ hab)
  | err | trap => rfl

theorem commit (h : o.Agree Q V o') (hs : Q s t) : Q (o.commit s) (o'.commit t) := by
  cases h with
  | ok _ hQ => exact hQ
  | err | trap => exact hs

end Outcome.Agree

namespace Prog

/-- Two programs side by side, each in its own environment: from states related by `P`
they end alike, in states related by `Q`. -/
def Lockstep (r r' : ρ) (P Q : σ → σ → Prop) (V : α → β → Prop) (x : Prog ρ ε σ α) (y : Prog ρ ε σ β) : Prop :=
  ∀ ⦃s t⦄, P s t → (x r s).Agree Q V (y r' t)

def LockstepUnless (bad : σ → Prop) (r r' : ρ) (P Q : σ → σ → Prop) (V : α → β → Prop)
    (x : Prog ρ ε σ α) (y : Prog ρ ε σ β) : Prop :=
  ∀ ⦃s t⦄, P s t → (x r s).Agree Q V (y r' t) ∨ ∃ a u, x r s = .ok a u ∧ bad u

variable {r r' : ρ} {P Q T : σ → σ → Prop} {V : α → β → Prop} {W : γ → δ → Prop} {bad : σ → Prop}
  {x : Prog ρ ε σ α} {y : Prog ρ ε σ β} {f : α → Prog ρ ε σ γ} {g : β → Prog ρ ε σ δ}

theorem Lockstep.unless (h : Lockstep r r' P Q V x y) : LockstepUnless bad r r' P Q V x y :=
  fun _ _ hs => .inl (h hs)

theorem LockstepUnless.of_imp (h : LockstepUnless bad r r' P Q V x y) (hTP : ∀ s t, T s t → P s t) :
    LockstepUnless bad r r' T Q V x y :=
  fun _ _ hs => h (hTP _ _ hs)

theorem lockstep_pure {a : α} {b : β} (h : V a b) :
    Lockstep r r' P P V (pure a : Prog ρ ε σ α) (pure b : Prog ρ ε σ β) :=
  fun _ _ hs => .ok h hs

theorem lockstep_bind (hx : Lockstep r r' P Q V x y) (hf : ∀ a b, V a b → Lockstep r r' Q T W (f a) (g b)) :
    Lockstep r r' P T W (x >>= f) (y >>= g) := by
  intro s t hs
  have hfirst := hx hs
  simp only [bind]
  generalize x r s = o at hfirst ⊢
  generalize y r' t = o' at hfirst ⊢
  cases hfirst with
  | ok hV hQ => exact hf _ _ hV hQ
  | err => exact .err ..
  | trap => exact .trap

theorem unless_bind (hx : Lockstep r r' P Q V x y)
    (hf : ∀ a b, V a b → LockstepUnless bad r r' Q T W (f a) (g b)) :
    LockstepUnless bad r r' P T W (x >>= f) (y >>= g) := by
  intro s t hs
  have hfirst := hx hs
  simp only [bind]
  generalize x r s = o at hfirst ⊢
  generalize y r' t = o' at hfirst ⊢
  cases hfirst with
  | ok hV hQ => exact hf _ _ hV hQ
  | err => exact .inl (.err ..)
  | trap => exact .inl .trap

/-- Where the first parts return the same value, the rest runs on it. -/
theorem lockstep_seq {x y : Prog ρ ε σ α} {f : α → Prog ρ ε σ γ} {g : α → Prog ρ ε σ δ}
    (hx : Lockstep r r' P Q Eq x y) (hf : ∀ a, Lockstep r r' Q T W (f a) (g a)) :
    Lockstep r r' P T W (x >>= f) (y >>= g) := by
  apply lockstep_bind hx
  rintro a _ rfl
  exact hf a

theorem unless_seq {x y : Prog ρ ε σ α} {f : α → Prog ρ ε σ γ} {g : α → Prog ρ ε σ δ}
    (hx : Lockstep r r' P Q Eq x y) (hf : ∀ a, LockstepUnless bad r r' Q T W (f a) (g a)) :
    LockstepUnless bad r r' P T W (x >>= f) (y >>= g) := by
  apply unless_bind hx
  rintro a _ rfl
  exact hf a

/-- An answer put on top of a program does not change how it ends. -/
theorem unless_returns {x y : Prog ρ ε σ α} (hx : LockstepUnless bad r r' P Q Eq x y) (f : α → γ) :
    LockstepUnless bad r r' P Q Eq (x >>= fun a => pure (f a)) (y >>= fun a => pure (f a)) := by
  intro s t hs
  have hfirst := hx hs
  simp only [bind]
  generalize x r s = o at hfirst ⊢
  generalize y r' t = o' at hfirst ⊢
  rcases hfirst with hagree | ⟨a, u, rfl, hbad⟩
  · cases hagree with
    | ok hV hQ => exact .inl (.ok (congrArg f hV) hQ)
    | err => exact .inl (.err ..)
    | trap => exact .inl .trap
  · exact .inr ⟨f a, u, rfl, hbad⟩

theorem lockstep_read {h : ρ → σ → α} {k : ρ → σ → β} (hread : ∀ s t, P s t → V (h r s) (k r' t)) :
    Lockstep r r' P P V (read h : Prog ρ ε σ α) (read k : Prog ρ ε σ β) :=
  fun s t hs => .ok (hread s t hs) hs

theorem lockstep_update {h k : ρ → σ → σ} (hupdate : ∀ s t, P s t → Q (h r s) (k r' t)) :
    Lockstep r r' P Q Eq (update h : Prog ρ ε σ Unit) (update k : Prog ρ ε σ Unit) :=
  fun s t hs => .ok rfl (hupdate s t hs)

theorem lockstep_halt : Lockstep r r' P Q V (halt : Prog ρ ε σ α) (halt : Prog ρ ε σ β) :=
  fun _ _ _ => .trap

theorem lockstep_failIf {c c' : Prop} [Decidable c] [Decidable c'] {e : ε} (h : c ↔ c') :
    Lockstep r r' P P Eq (failIf c e : Prog ρ ε σ Unit) (failIf c' e : Prog ρ ε σ Unit) := by
  intro s t hs
  by_cases hc : c
  · simp only [failIf, if_pos hc, if_pos (h.mp hc)]
    exact .err ..
  · simp only [failIf, if_neg hc, if_neg (fun hc' => hc (h.mpr hc'))]
    exact .ok rfl hs

theorem lockstep_haltIf {c c' : Prop} [Decidable c] [Decidable c'] (h : c ↔ c') :
    Lockstep r r' P P Eq (haltIf c : Prog ρ ε σ Unit) (haltIf c' : Prog ρ ε σ Unit) := by
  intro s t hs
  by_cases hc : c
  · simp only [haltIf, if_pos hc, if_pos (h.mp hc)]
    exact .trap
  · simp only [haltIf, if_neg hc, if_neg (fun hc' => hc (h.mpr hc'))]
    exact .ok rfl hs

theorem lockstep_okOr {e : ε} {o : Option α} {o' : Option β} (h : Option.Rel V o o') :
    Lockstep r r' P P V (okOr e o : Prog ρ ε σ α) (okOr e o' : Prog ρ ε σ β) := by
  intro s t hs
  cases h with
  | some hab => exact .ok hab hs
  | none => exact .err ..

theorem lockstep_okOrHalt {o : Option α} {o' : Option β} (h : Option.Rel V o o') :
    Lockstep r r' P P V (okOrHalt o : Prog ρ ε σ α) (okOrHalt o' : Prog ρ ε σ β) := by
  intro s t hs
  cases h with
  | some hab => exact .ok hab hs
  | none => exact .trap

theorem rel_of_eq {o o' : Option α} (h : o = o') : Option.Rel Eq o o' := by
  subst h
  cases o with
  | some a => exact .some rfl
  | none => exact .none

theorem rel_imp {V V' : α → β → Prop} {o : Option α} {o' : Option β} (h : Option.Rel V o o')
    (hV : ∀ a b, V a b → V' a b) : Option.Rel V' o o' := by
  cases h with
  | some hab => exact .some (hV _ _ hab)
  | none => exact .none

theorem lockstep_ite {c c' : Prop} [Decidable c] [Decidable c'] {x₁ : Prog ρ ε σ α} {y₁ : Prog ρ ε σ β} (h : c ↔ c')
    (hx : Lockstep r r' P Q V x y) (hy : Lockstep r r' P Q V x₁ y₁) :
    Lockstep r r' P Q V (if c then x else x₁) (if c' then y else y₁) := by
  by_cases hc : c
  · rw [if_pos hc, if_pos (h.mp hc)]
    exact hx
  · rw [if_neg hc, if_neg fun hc' => hc (h.mpr hc')]
    exact hy

theorem unless_ite {c c' : Prop} [Decidable c] [Decidable c'] {x₁ : Prog ρ ε σ α} {y₁ : Prog ρ ε σ β} (h : c ↔ c')
    (hx : LockstepUnless bad r r' P Q V x y) (hy : LockstepUnless bad r r' P Q V x₁ y₁) :
    LockstepUnless bad r r' P Q V (if c then x else x₁) (if c' then y else y₁) := by
  by_cases hc : c
  · rw [if_pos hc, if_pos (h.mp hc)]
    exact hx
  · rw [if_neg hc, if_neg fun hc' => hc (h.mpr hc')]
    exact hy

theorem lockstep_tryCall (hx : Lockstep r r' P P V x y) : Lockstep r r' P P Eq (tryCall x) (tryCall y) :=
  fun _ _ hs => .ok rfl ((hx hs).commit hs)

end Prog

end Lib.Rollback
