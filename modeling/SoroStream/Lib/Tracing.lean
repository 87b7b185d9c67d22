import SoroStream.Lib.Rollback

namespace Lib.Rollback

variable {ρ ε σ τ α β : Type}

def Outcome.forget : Outcome ε (σ × List τ) α → Outcome ε σ α
  | .ok a s => .ok a s.1
  | .err e s => .err e s.1
  | .trap => .trap

namespace Prog

def quietly (x : Prog ρ ε σ α) : Prog ρ ε (σ × List τ) α := fun r s => match x r s.1 with
  | .ok a t => .ok a (t, s.2)
  | .err e t => .err e (t, s.2)
  | .trap => .trap

def publish (line : τ) : Prog ρ ε (σ × List τ) Unit := update fun _ s => (s.1, s.2 ++ [line])

/-- But for the journal, the first program does what the second does. The parts of a program
are found by instance, its sequences are taken apart by the rules below. -/
class Erases (x : Prog ρ ε (σ × List τ) α) (y : Prog ρ ε σ α) : Prop where
  forget_eq : ∀ r s, (x r s).forget = y r s.1

variable {r : ρ} {s t : σ × List τ} {x : Prog ρ ε (σ × List τ) α} {y : Prog ρ ε σ α}

@[simp] theorem quietly_ok {a : α} : quietly y r s = .ok a t ↔ y r s.1 = .ok a t.1 ∧ s.2 = t.2 := by
  obtain ⟨t, l⟩ := t
  rw [quietly]
  cases y r s.1 <;> simp [and_assoc]

@[simp] theorem publish_ok {line : τ} {u : Unit} :
    (publish line : Prog ρ ε (σ × List τ) Unit) r s = .ok u t ↔ (s.1, s.2 ++ [line]) = t := update_ok

section

variable {w : σ} {l : List τ} {e : ε} {v : β} {z : Prog ρ ε σ Unit} {f : Unit → Prog ρ ε (σ × List τ) β}
  {g : α → Prog ρ ε (σ × List τ) β}

theorem quietly_bind_ok :
    (quietly y >>= g) r (w, l) = .ok v t ↔ ∃ a u, y r w = .ok a u ∧ g a r (u, l) = .ok v t := by
  simp only [bind, quietly]
  cases y r w <;> simp

theorem quietly_seq_ok :
    (quietly z >>= f) r (w, l) = .ok v t ↔ ∃ u, z r w = .ok () u ∧ f () r (u, l) = .ok v t := by
  rw [quietly_bind_ok]
  exact ⟨fun ⟨(), h⟩ => h, fun h => ⟨(), h⟩⟩

theorem quietly_seq_err :
    (quietly z >>= f) r (w, l) = .err e t ↔
      (∃ u, z r w = .err e u ∧ (u, l) = t) ∨ ∃ u, z r w = .ok () u ∧ f () r (u, l) = .err e t := by
  simp only [bind, quietly]
  cases z r w <;> simp

theorem quietly_read_bind {h : ρ → σ → α} : (quietly (read h) >>= g) r (w, l) = g (h r w) r (w, l) := rfl

theorem publish_bind {line : τ} : (publish line >>= f) r (w, l) = f () r (w, l ++ [line]) := rfl

end

section

variable {a : α} {e : ε} {c : Prop} [Decidable c] {o : Option α}

instance erases_quietly : Erases (quietly y : Prog ρ ε (σ × List τ) α) y where
  forget_eq r s := by
    rw [quietly]
    cases y r s.1 <;> rfl

instance erases_pure : Erases (pure a : Prog ρ ε (σ × List τ) α) (pure a) := ⟨fun _ _ => rfl⟩

instance erases_publish {line : τ} : Erases (publish line : Prog ρ ε (σ × List τ) Unit) (pure ()) := ⟨fun _ _ => rfl⟩

instance erases_failIf : Erases (failIf c e : Prog ρ ε (σ × List τ) Unit) (failIf c e) where
  forget_eq r s := by by_cases h : c <;> simp [failIf, h, fail, Outcome.forget]

instance erases_okOr : Erases (okOr e o : Prog ρ ε (σ × List τ) α) (okOr e o) where
  forget_eq r s := by cases o <;> rfl

instance erases_okOrHalt : Erases (okOrHalt o : Prog ρ ε (σ × List τ) α) (okOrHalt o) where
  forget_eq r s := by cases o <;> rfl

theorem erases_ite {x' : Prog ρ ε (σ × List τ) α} {y' : Prog ρ ε σ α} (hx : Erases x y) (hx' : Erases x' y') :
    Erases (if c then x else x') (if c then y else y') := by
  split <;> assumption

theorem erases_bind {f : α → Prog ρ ε (σ × List τ) β} {g : α → Prog ρ ε σ β} [hx : Erases x y]
    (hf : ∀ a, Erases (f a) (g a)) : Erases (x >>= f) (y >>= g) where
  forget_eq r s := by
    simp only [bind, ← hx.forget_eq r s]
    cases x r s with
    | ok a t => exact (hf a).forget_eq r t
    | err e t => rfl
    | trap => rfl

/-- A remark before a program leaves what it does. -/
theorem erases_remark {m : Prog ρ ε (σ × List τ) Unit} [Erases m (pure ())] (hx : Erases x y) :
    Erases (m >>= fun _ => x) y :=
  ⟨(erases_bind (x := m) (y := pure ()) (g := fun _ => y) fun _ => hx).forget_eq⟩

theorem erases_bind_remark {x m : Prog ρ ε (σ × List τ) Unit} {y : Prog ρ ε σ Unit} [Erases x y]
    [hm : Erases m (pure ())] : Erases (x >>= fun _ => m) y := by
  have hpure : (y >>= fun _ => pure ()) = y := by
    funext r s
    simp only [bind]
    cases y r s <;> rfl
  rw [← hpure]
  exact erases_bind fun _ => hm

instance erases_each {f : α → Prog ρ ε (σ × List τ) β} {g : α → Prog ρ ε σ β} {as : List α}
    [hf : ∀ a, Erases (f a) (g a)] : Erases (each f as) (each g as) := by
  induction as with
  | nil => exact erases_pure
  | cons a as ih => exact erases_bind fun b => erases_bind fun bs => erases_pure

instance erases_attempt [hx : Erases x y] : Erases (attempt x) (attempt y) where
  forget_eq r s := by
    simp only [attempt, ← hx.forget_eq r s]
    cases x r s <;> rfl

end

theorem Erases.ok [h : Erases x y] {a : α} (hx : x r s = .ok a t) : y r s.1 = .ok a t.1 := by
  rw [← h.forget_eq r s, hx]
  rfl

end Prog

end Lib.Rollback
