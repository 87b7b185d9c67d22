import Mathlib.Logic.Basic
import Mathlib.Data.List.Basic
import Mathlib.Tactic.Common

namespace Lib.Runs

variable {σ ε : Type} {may may' : σ → ε → Prop} {step : σ → ε → σ}
  {s₀ s t : σ} {es es' : List ε}

/-- Runs of a machine from one state: every event is allowed where it happens. -/
inductive Run (may : σ → ε → Prop) (step : σ → ε → σ) (s₀ : σ) : List ε → σ → Prop
  | nil : Run may step s₀ [] s₀
  | snoc {es s e} : Run may step s₀ es s → may s e → Run may step s₀ (es ++ [e]) (step s e)

/-- An invariant kept by every allowed event holds after every run. -/
theorem Run.inv (I : σ → Prop) (h₀ : I s₀) (hstep : ∀ s e, I s → may s e → I (step s e))
    (h : Run may step s₀ es s) : I s := by
  induction h with
  | nil => exact h₀
  | snoc _ hm ih => exact hstep _ _ ih hm

/-- The invariant may speak of the events seen so far. -/
theorem Run.trace_inv (I : List ε → σ → Prop) (h₀ : I [] s₀)
    (hstep : ∀ es s e, Run may step s₀ es s → I es s → may s e → I (es ++ [e]) (step s e))
    (h : Run may step s₀ es s) : I es s := by
  induction h with
  | nil => exact h₀
  | snoc hr hm ih => exact hstep _ _ _ hr ih hm

theorem Run.state_eq (h : Run may step s₀ es s) : s = es.foldl step s₀ := by
  induction h with
  | nil => rfl
  | snoc _ _ ih => rw [List.foldl_append, ← ih]; rfl

/-- A run may be held to more, where each of its events meets it. -/
theorem Run.restrict (h : Run may step s₀ es s)
    (hall : ∀ es₁ e es₂, es = es₁ ++ e :: es₂ → may (es₁.foldl step s₀) e → may' (es₁.foldl step s₀) e) :
    Run may' step s₀ es s := by
  induction h with
  | nil => exact .nil
  | @snoc es₁ s₁ e hr hm ih =>
      have hstate := hr.state_eq
      refine .snoc (ih fun es₂ e' es₃ heq => hall es₂ e' (es₃ ++ [e]) (by simp [heq])) ?_
      rw [hstate] at hm ⊢
      exact hall es₁ e [] rfl hm

theorem Run.append (h : Run may step s₀ es s) (h' : Run may step s es' t) :
    Run may step s₀ (es ++ es') t := by
  induction h' with
  | nil => simpa using h
  | snoc _ hm ih => simpa only [List.append_assoc] using Run.snoc ih hm

theorem Run.left (h : Run may step s₀ (es ++ es') t) : Run may step s₀ es (es.foldl step s₀) := by
  generalize hall : es ++ es' = all at h
  induction h generalizing es' with
  | nil =>
      obtain ⟨rfl, -⟩ := List.append_eq_nil_iff.mp hall
      exact .nil
  | @snoc es₁ s₁ e hr hm ih =>
      rcases List.eq_nil_or_concat es' with rfl | ⟨es'', e', rfl⟩
      · rw [List.append_nil] at hall
        subst hall
        have hrun := Run.snoc hr hm
        rwa [hrun.state_eq] at hrun
      · rw [List.concat_eq_append, ← List.append_assoc] at hall
        exact ih (List.append_inj' hall rfl).1

def Reachable (init : σ → Prop) (may : σ → ε → Prop) (step : σ → ε → σ) (s : σ) : Prop :=
  ∃ s₀ es, init s₀ ∧ Run may step s₀ es s

theorem Reachable.inv {init : σ → Prop} (I : σ → Prop) (h₀ : ∀ s, init s → I s)
    (hstep : ∀ s e, I s → may s e → I (step s e)) (h : Reachable init may step s) : I s := by
  obtain ⟨s₀, es, hi, hr⟩ := h
  exact hr.inv I (h₀ s₀ hi) hstep

theorem Reachable.next {init : σ → Prop} {e : ε} (h : Reachable init may step s) (hm : may s e) :
    Reachable init may step (step s e) := by
  obtain ⟨s₀, es, hi, hr⟩ := h
  exact ⟨s₀, es ++ [e], hi, hr.snoc hm⟩

theorem Reachable.run {init : σ → Prop} (h : Reachable init may step s)
    (hr : Run may step s es t) : Reachable init may step t := by
  obtain ⟨s₀, es₀, hi, h₀⟩ := h
  exact ⟨s₀, es₀ ++ es, hi, h₀.append hr⟩

section

variable {α : Type} {out : σ → ε → List α}

def outputs (step : σ → ε → σ) (out : σ → ε → List α) : σ → List ε → List α
  | _, [] => []
  | s, e :: es => out s e ++ outputs step out (step s e) es

theorem outputs_append (s : σ) (es es' : List ε) :
    outputs step out s (es ++ es') = outputs step out s es ++ outputs step out (es.foldl step s) es' := by
  induction es generalizing s with
  | nil => rfl
  | cons e es ih => simp only [List.cons_append, outputs, ih, List.foldl_cons, List.append_assoc]

theorem Run.outputs_snoc (h : Run may step s₀ es s) (e : ε) :
    outputs step out s₀ (es ++ [e]) = outputs step out s₀ es ++ out s e := by
  rw [outputs_append, ← h.state_eq, outputs, outputs, List.append_nil]

end

/-- A state that knows what was put out so far, and puts out nothing that it knows: the
outputs are distinct, and they are what it knows. -/
theorem Run.remembered {α : Type} {out : σ → ε → List α} (knows : σ → α → Prop) (h : Run may step s₀ es s)
    (h₀ : ∀ a, ¬knows s₀ a)
    (hstep : ∀ s e, may s e → (out s e).Nodup ∧ (∀ a ∈ out s e, ¬knows s a) ∧
      ∀ a, knows (step s e) a ↔ knows s a ∨ a ∈ out s e) :
    (outputs step out s₀ es).Nodup ∧ ∀ a, knows s a ↔ a ∈ outputs step out s₀ es := by
  induction h with
  | nil => exact ⟨List.nodup_nil, fun a => iff_of_false (h₀ a) List.not_mem_nil⟩
  | @snoc es s e hr hm ih =>
      obtain ⟨hnodup, hknown⟩ := ih
      obtain ⟨hnew, hunknown, hafter⟩ := hstep s e hm
      rw [hr.outputs_snoc]
      constructor
      · refine List.nodup_append.mpr ⟨hnodup, hnew, ?_⟩
        rintro a ha b hb rfl
        exact hunknown a hb ((hknown a).mpr ha)
      · intro a
        rw [hafter, hknown, List.mem_append]

/-- A counter that numbers what is put out: the outputs count up from zero. -/
theorem Run.numbered {out : σ → ε → List Nat} (count : σ → Nat) (h : Run may step s₀ es s) (h₀ : count s₀ = 0)
    (hstep : ∀ s e, may s e → out s e = [] ∧ count (step s e) = count s ∨
      out s e = [count s] ∧ count (step s e) = count s + 1) :
    outputs step out s₀ es = List.range (count s) := by
  induction h with
  | nil => rw [h₀]; rfl
  | @snoc es s e hr hm ih =>
      rw [hr.outputs_snoc, ih]
      rcases hstep s e hm with ⟨hout, hcount⟩ | ⟨hout, hcount⟩
      · rw [hout, hcount, List.append_nil]
      · rw [hout, hcount, List.range_succ]

def Throughout (step : σ → ε → σ) (P : σ → ε → Prop) : σ → List ε → Prop
  | _, [] => True
  | s, e :: es => P s e ∧ Throughout step P (step s e) es

theorem throughout_append {P : σ → ε → Prop} (s : σ) (es es' : List ε) :
    Throughout step P s (es ++ es') ↔ Throughout step P s es ∧ Throughout step P (es.foldl step s) es' := by
  induction es generalizing s with
  | nil => simp [Throughout]
  | cons e es ih =>
      rw [List.cons_append, Throughout, Throughout, ih, and_assoc]
      rfl

theorem Run.throughout_snoc {P : σ → ε → Prop} (h : Run may step s₀ es s) (e : ε) :
    Throughout step P s₀ (es ++ [e]) ↔ Throughout step P s₀ es ∧ P s e := by
  rw [throughout_append, ← h.state_eq, Throughout, Throughout, and_true]

/-- Two properties that agree on the events of every run. -/
theorem Run.throughout_congr {P Q : σ → ε → Prop} (h : Run may step s₀ es s)
    (hiff : ∀ es s e, Run may step s₀ es s → may s e → (P s e ↔ Q s e)) :
    Throughout step P s₀ es ↔ Throughout step Q s₀ es := by
  induction h with
  | nil => exact Iff.rfl
  | @snoc es s e hr hm ih => rw [hr.throughout_snoc, hr.throughout_snoc, ih, hiff es s e hr hm]

/-- The same, read off the places where the run can be cut. -/
theorem throughout_iff {P : σ → ε → Prop} (s : σ) (es : List ε) :
    Throughout step P s es ↔ ∀ es₁ e es₂, es = es₁ ++ e :: es₂ → P (es₁.foldl step s) e := by
  constructor
  · rintro h es₁ e es₂ rfl
    exact ((throughout_append s es₁ (e :: es₂)).mp h).2.1
  · intro h
    induction es generalizing s with
    | nil => trivial
    | cons e es ih =>
        refine ⟨h [] e es rfl, ih (step s e) ?_⟩
        rintro es₁ e' es₂ rfl
        exact h (e :: es₁) e' es₂ rfl

/-- A property that an invariant gives, and that the first bad event destroys, holds at
every moment of a run exactly when no event of it is bad. Both may speak of the events
seen so far. -/
theorem Run.always_trace_iff {P : List ε → σ → Prop} {good : σ → ε → Prop} (I : List ε → σ → Prop)
    (h : Run may step s₀ es s) (h₀ : I [] s₀)
    (hkeep : ∀ es s e, Run may step s₀ es s → I es s → may s e → good s e → I (es ++ [e]) (step s e))
    (hgives : ∀ es s, I es s → P es s)
    (hbreak : ∀ es s e, I es s → may s e → ¬good s e → ¬P (es ++ [e]) (step s e)) :
    (∀ es₁, es₁ <+: es → P es₁ (es₁.foldl step s₀)) ↔ Throughout step good s₀ es := by
  suffices hboth : (Throughout step good s₀ es → I es s) ∧
      ((∀ es₁, es₁ <+: es → P es₁ (es₁.foldl step s₀)) ↔ Throughout step good s₀ es) from hboth.2
  induction h with
  | nil =>
      refine ⟨fun _ => h₀, iff_of_true ?_ trivial⟩
      intro es₁ hpre
      rw [List.prefix_nil.mp hpre]
      exact hgives _ _ h₀
  | @snoc es s e hr hm ih =>
      obtain ⟨hinv, hiff⟩ := ih
      have hnext : Throughout step good s₀ es ∧ good s e → I (es ++ [e]) (step s e) :=
        fun h => hkeep es s e hr (hinv h.1) hm h.2
      have hend : (es ++ [e]).foldl step s₀ = step s e := (hr.snoc hm).state_eq.symm
      rw [hr.throughout_snoc]
      refine ⟨hnext, ?_, ?_⟩
      · intro hall
        have hbefore := hiff.mp fun es₁ hpre => hall es₁ (hpre.trans (List.prefix_append es [e]))
        refine ⟨hbefore, ?_⟩
        by_contra hbad
        exact hbreak es s e (hinv hbefore) hm hbad (hend ▸ hall _ List.prefix_rfl)
      · intro hgood es₁ hpre
        rcases List.prefix_concat_iff.mp hpre with rfl | hpre
        · exact hend ▸ hgives _ _ (hnext hgood)
        · exact hiff.mpr hgood.1 es₁ hpre

theorem Run.always_iff {P : σ → Prop} {good : σ → ε → Prop} (I : σ → Prop) (h : Run may step s₀ es s) (h₀ : I s₀)
    (hkeep : ∀ s e, I s → may s e → good s e → I (step s e)) (hgives : ∀ s, I s → P s)
    (hbreak : ∀ s e, I s → may s e → ¬good s e → ¬P (step s e)) :
    (∀ es₁, es₁ <+: es → P (es₁.foldl step s₀)) ↔ Throughout step good s₀ es :=
  h.always_trace_iff (P := fun _ => P) (fun _ => I) h₀ (fun _ s e _ => hkeep s e) (fun _ => hgives) fun _ => hbreak

def Since (step : σ → ε → σ) (P Q : σ → ε → Prop) (s : σ) (es : List ε) : Prop :=
  ∃ before e later, es = before ++ e :: later ∧ P (before.foldl step s) e ∧
    Throughout step Q (step (before.foldl step s) e) later

theorem since_snoc {P Q : σ → ε → Prop} (s : σ) (es : List ε) (e : ε) :
    Since step P Q s (es ++ [e]) ↔ P (es.foldl step s) e ∨ Since step P Q s es ∧ Q (es.foldl step s) e := by
  constructor
  · rintro ⟨before, e', later, heq, hP, hQ⟩
    rcases List.eq_nil_or_concat later with rfl | ⟨later, e'', rfl⟩
    · obtain ⟨rfl, hlast⟩ := List.append_inj' heq rfl
      obtain rfl := List.head_eq_of_cons_eq hlast
      exact .inl hP
    · rw [List.concat_eq_append, ← List.cons_append, ← List.append_assoc] at heq
      obtain ⟨rfl, hlast⟩ := List.append_inj' heq rfl
      obtain rfl := List.head_eq_of_cons_eq hlast
      rw [List.concat_eq_append, throughout_append] at hQ
      rw [List.foldl_append]
      exact .inr ⟨⟨before, e', later, rfl, hP, hQ.1⟩, hQ.2.1⟩
  · rintro (hP | ⟨⟨before, e', later, rfl, hP, hQ⟩, hlast⟩)
    · exact ⟨es, e, [], rfl, hP, trivial⟩
    · refine ⟨before, e', later ++ [e], by simp, hP, (throughout_append _ _ _).mpr ⟨hQ, ?_, trivial⟩⟩
      rwa [List.foldl_append] at hlast

instance decidableThroughout {P : σ → ε → Prop} [∀ s e, Decidable (P s e)] :
    ∀ s es, Decidable (Throughout step P s es)
  | _, [] => .isTrue trivial
  | s, e :: es =>
      @instDecidableAnd _ _ _ (decidableThroughout (step s e) es)

inductive Emits {α : Type} (step : List α → σ → σ → Prop) : List α → σ → σ → Prop
  | refl (s : σ) : Emits step [] s s
  | tail {as bs : List α} {s t u : σ} : Emits step as s t → step bs t u → Emits step (as ++ bs) s u

namespace Emits

variable {α : Type} {step : List α → σ → σ → Prop} {as bs : List α} {u : σ}

theorem single (h : step as s t) : Emits step as s t := tail (refl s) h

theorem trans (h : Emits step as s t) (h' : Emits step bs t u) : Emits step (as ++ bs) s u := by
  induction h' with
  | refl _ => simpa using h
  | tail _ hstep ih => simpa only [List.append_assoc] using tail (ih h) hstep

theorem head (h : step as s t) (h' : Emits step bs t u) : Emits step (as ++ bs) s u := (single h).trans h'

/-- An invariant kept by every step holds after all of them. -/
theorem inv (I : σ → Prop) (hstep : ∀ as s t, step as s t → I s → I t) (h : Emits step as s t) (hs : I s) :
    I t := by
  induction h with
  | refl _ => exact hs
  | tail _ hlast ih => exact hstep _ _ _ hlast (ih hs)

end Emits

end Lib.Runs
