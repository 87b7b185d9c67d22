import SoroStream.Lib.Rollback

namespace Lib.Rollback.Prog

variable {ρ ε σ α β γ : Type} {r : ρ} {s t : σ}

/-- A call in a transaction of its own: a failure undoes its writes and has no value. -/
def isolated (x : Prog ρ ε σ α) : Prog ρ ε σ (Option α) := fun r s => .ok (x r s).value? ((x r s).commit s)

theorem isolated_apply (x : Prog ρ ε σ α) (r : ρ) (s : σ) :
    isolated x r s = .ok (x r s).value? ((x r s).commit s) := rfl

theorem isolated_of_ok {x : Prog ρ ε σ α} {a : α} (h : x r s = .ok a t) : isolated x r s = .ok (some a) t := by
  rw [isolated_apply, h]
  rfl

theorem isolated_of_failed {x : Prog ρ ε σ α} (h : ∀ a t, x r s ≠ .ok a t) : isolated x r s = .ok none s := by
  have hnone : (x r s).value? = none := by
    cases hx : x r s with
    | ok a t => exact absurd hx (h a t)
    | err | trap => rfl
  rw [isolated_apply, hnone, Outcome.commit_of_value?_none hnone]

theorem isolated_ok_some {x : Prog ρ ε σ α} {a : α} : isolated x r s = .ok (some a) t ↔ x r s = .ok a t := by
  constructor
  · intro h
    rw [isolated_apply] at h
    cases hx : x r s with
    | ok b u => rw [hx] at h; simpa [Outcome.value?] using h
    | err | trap => rw [hx] at h; simp [Outcome.value?] at h
  · exact isolated_of_ok

theorem isolated_ok_none {x : Prog ρ ε σ α} (h : isolated x r s = .ok none t) : s = t := by
  rw [isolated_apply] at h
  obtain ⟨hnone, rfl⟩ := Outcome.ok.inj h
  rw [Outcome.commit_of_value?_none hnone]

theorem attempt_of_ok {x : Prog ρ ε σ α} {a : α} (h : x r s = .ok a t) : attempt x r s = .ok (.ok a) t :=
  attempt_ok.mpr (.inl ⟨a, h, rfl⟩)

theorem attempt_of_err {x : Prog ρ ε σ α} {e : ε} (h : x r s = .err e t) : attempt x r s = .ok (.error e) t :=
  attempt_ok.mpr (.inr ⟨e, h, rfl⟩)

theorem each_length {f : α → Prog ρ ε σ β} {as : List α} {bs : List β} (h : each f as r s = .ok bs t) :
    bs.length = as.length := by
  induction as generalizing s bs with
  | nil =>
      obtain ⟨rfl, -⟩ := each_nil.mp h
      rfl
  | cons a as ih =>
      obtain ⟨b, u, cs, -, hc, rfl⟩ := each_cons.mp h
      rw [List.length_cons, List.length_cons, ih hc]

theorem each_isolated (f : α → Prog ρ ε σ β) (r : ρ) (as : List α) (s : σ) :
    ∃ bs t, each (fun a => isolated (f a)) as r s = .ok bs t := by
  induction as generalizing s with
  | nil => exact ⟨[], s, rfl⟩
  | cons a as ih =>
      obtain ⟨bs, t, h⟩ := ih ((f a r s).commit s)
      exact ⟨_, t, each_cons.mpr ⟨_, _, bs, isolated_apply (f a) r s, h, rfl⟩⟩

theorem each_isolated_some {f : α → Prog ρ ε σ β} {as : List α} {bs : List β} :
    each (fun a => isolated (f a)) as r s = .ok (bs.map some) t ↔ each f as r s = .ok bs t := by
  induction as generalizing s bs with
  | nil => simp
  | cons a as ih =>
      rw [each_cons, each_cons]
      constructor
      · rintro ⟨b, u, cs, hb, hc, heq⟩
        obtain ⟨b', cs', rfl, rfl, rfl⟩ := List.map_eq_cons_iff.mp heq
        exact ⟨b', u, cs', isolated_ok_some.mp hb, ih.mp hc, rfl⟩
      · rintro ⟨b, u, cs, hb, hc, rfl⟩
        exact ⟨some b, u, cs.map some, isolated_of_ok hb, ih.mpr hc, rfl⟩

end Lib.Rollback.Prog
