import SoroStream.Lib.Rollback

namespace Lib.Rollback.Prog

variable {ρ ε σ α β : Type} {bad : Option ε → Prop} {r : ρ} {s t : σ} {a : α} {e : ε}

/-- Started from `s`, the program ends in none of the bad failures: `some e` stands
for the error `e`, `none` for a trap. -/
def Avoids (bad : Option ε → Prop) (r : ρ) (s : σ) (x : Prog ρ ε σ α) : Prop :=
  (∀ e t, x r s = .err e t → ¬bad (some e)) ∧ (x r s = .trap → ¬bad none)

theorem avoids_of_ok {x : Prog ρ ε σ α} (h : x r s = .ok a t) : Avoids bad r s x := by
  refine ⟨?_, ?_⟩
  · intro e u he
    rw [h] at he
    cases he
  · intro htrap
    rw [h] at htrap
    cases htrap

theorem Avoids.not_err {x : Prog ρ ε σ α} (h : Avoids bad r s x) (he : bad (some e)) (t : σ) : x r s ≠ .err e t :=
  fun herr => h.1 e t herr he

theorem Avoids.not_trap {x : Prog ρ ε σ α} (h : Avoids bad r s x) (hnone : bad none) : x r s ≠ .trap :=
  fun htrap => h.2 htrap hnone

theorem avoids_pure : Avoids bad r s (pure a : Prog ρ ε σ α) := avoids_of_ok pure_apply

theorem avoids_update {f : ρ → σ → σ} : Avoids bad r s (update f : Prog ρ ε σ Unit) := avoids_of_ok (t := f r s) rfl

theorem avoids_tryCall {x : Prog ρ ε σ α} : Avoids bad r s (tryCall x) := avoids_of_ok (t := (x r s).commit s) rfl

theorem avoids_fail (h : ¬bad (some e)) : Avoids bad r s (fail e : Prog ρ ε σ α) := by
  refine ⟨?_, fun htrap => by cases htrap⟩
  rintro _ _ ⟨⟩
  exact h

theorem avoids_halt (h : ¬bad none) : Avoids bad r s (halt : Prog ρ ε σ α) := by
  refine ⟨?_, fun _ => h⟩
  intro e t herr
  cases herr

theorem avoids_failIf {c : Prop} [Decidable c] (h : c → ¬bad (some e)) :
    Avoids bad r s (failIf c e : Prog ρ ε σ Unit) := by
  unfold failIf
  split
  · exact avoids_fail (h ‹c›)
  · exact avoids_pure

theorem avoids_haltIf {c : Prop} [Decidable c] (h : c → ¬bad none) : Avoids bad r s (haltIf c : Prog ρ ε σ Unit) := by
  unfold haltIf
  split
  · exact avoids_halt (h ‹c›)
  · exact avoids_pure

theorem avoids_okOr {o : Option α} (h : o = none → ¬bad (some e)) : Avoids bad r s (okOr e o : Prog ρ ε σ α) := by
  cases o with
  | none => exact avoids_fail (h rfl)
  | some a => exact avoids_pure

theorem avoids_ite {c : Prop} [Decidable c] {x y : Prog ρ ε σ α} (hx : c → Avoids bad r s x)
    (hy : ¬c → Avoids bad r s y) : Avoids bad r s (if c then x else y) := by
  split
  · exact hx ‹c›
  · exact hy ‹¬c›

theorem avoids_bind {x : Prog ρ ε σ α} {f : α → Prog ρ ε σ β} (hx : Avoids bad r s x)
    (hf : ∀ a t, x r s = .ok a t → Avoids bad r t (f a)) : Avoids bad r s (x >>= f) := by
  cases h : x r s with
  | ok a t =>
      simp only [Avoids, bind_apply h]
      exact hf a t h
  | err e t =>
      refine ⟨?_, ?_⟩
      · intro e' t' herr
        rw [bind_err h] at herr
        cases herr
        exact hx.1 e t h
      · intro htrap
        rw [bind_err h] at htrap
        cases htrap
  | trap =>
      refine ⟨?_, fun _ => hx.2 h⟩
      intro e t herr
      simp only [bind, h] at herr
      cases herr

theorem avoids_read_bind {g : ρ → σ → α} {f : α → Prog ρ ε σ β} (h : Avoids bad r s (f (g r s))) :
    Avoids bad r s (read g >>= f) := h

theorem avoids_failIf_bind {c : Prop} [Decidable c] {f : Unit → Prog ρ ε σ β} (h : c → ¬bad (some e))
    (hf : ¬c → Avoids bad r s (f ())) : Avoids bad r s (failIf c e >>= f) := by
  refine avoids_bind (avoids_failIf h) ?_
  rintro u t ht
  obtain ⟨hc, rfl⟩ := failIf_ok.mp ht
  exact hf hc

theorem avoids_okOr_bind {o : Option α} {f : α → Prog ρ ε σ β} (h : o = none → ¬bad (some e))
    (hf : ∀ a, o = some a → Avoids bad r s (f a)) : Avoids bad r s (okOr e o >>= f) := by
  refine avoids_bind (avoids_okOr h) ?_
  intro a t ht
  obtain ⟨ho, rfl⟩ := okOr_ok.mp ht
  exact hf a ho

/-- `P` holds of each item in the state in which the loop comes to it. -/
def Along (f : α → Prog ρ ε σ β) (P : α → σ → Prop) (r : ρ) : List α → σ → Prop
  | [], _ => True
  | a :: as, s => P a s ∧ ∀ b t, f a r s = .ok b t → Along f P r as t

theorem along_cons_of_ok {f : α → Prog ρ ε σ β} {P : α → σ → Prop} {as : List α} {b : β} (h : f a r s = .ok b t) :
    Along f P r (a :: as) s ↔ P a s ∧ Along f P r as t := by
  refine and_congr_right fun _ => ⟨fun hrest => hrest b t h, ?_⟩
  intro hrest b' t' h'
  obtain ⟨-, rfl⟩ := Outcome.ok.inj (h.symm.trans h')
  exact hrest

theorem along_cons_of_not_ok {f : α → Prog ρ ε σ β} {P : α → σ → Prop} {as : List α} (h : ∀ b t, f a r s ≠ .ok b t) :
    Along f P r (a :: as) s ↔ P a s :=
  and_iff_left fun b t hok => absurd hok (h b t)

instance decidableAlong {f : α → Prog ρ ε σ β} {P : α → σ → Prop} [∀ a s, Decidable (P a s)] :
    ∀ as s, Decidable (Along f P r as s)
  | [], _ => .isTrue trivial
  | a :: as, s =>
      match h : f a r s with
      | .ok _ t => @decidable_of_iff' _ _ (along_cons_of_ok h) (@instDecidableAnd _ _ _ (decidableAlong as t))
      | .err .. => decidable_of_iff' _ (along_cons_of_not_ok (by simp [h]))
      | .trap => decidable_of_iff' _ (along_cons_of_not_ok (by simp [h]))

theorem Along.and {f : α → Prog ρ ε σ β} {P Q : α → σ → Prop} {as : List α} (h : Along f P r as s)
    (h' : Along f Q r as s) : Along f (fun a s => P a s ∧ Q a s) r as s := by
  induction as generalizing s with
  | nil => trivial
  | cons a as ih => exact ⟨⟨h.1, h'.1⟩, fun b t ht => ih (h.2 b t ht) (h'.2 b t ht)⟩

theorem Along.of_imp {f : α → Prog ρ ε σ β} {P : α → σ → Prop} {c : Prop} {as : List α}
    (h : c → Along f P r as s) : Along f (fun a s => c → P a s) r as s := by
  induction as generalizing s with
  | nil => trivial
  | cons a as ih => exact ⟨fun hc => (h hc).1, fun b t ht => ih fun hc => (h hc).2 b t ht⟩

/-- Where a loop goes through, a property of its items that an invariant decides for each
item on its own holds all along exactly when it holds of all items. -/
theorem along_iff {f : α → Prog ρ ε σ β} {P : α → σ → Prop} {Q : α → Prop} (I : List α → σ → Prop)
    (hitem : ∀ a as s b t, I (a :: as) s → f a r s = .ok b t → (P a s ↔ Q a) ∧ I as t)
    {as : List α} {bs : List β} (hs : I as s) (h : each f as r s = .ok bs t) :
    Along f P r as s ↔ ∀ a ∈ as, Q a := by
  induction as generalizing s bs with
  | nil => exact ⟨fun _ a ha => absurd ha List.not_mem_nil, fun _ => trivial⟩
  | cons a as ih =>
      obtain ⟨b, u, cs, hb, hc, -⟩ := each_cons.mp h
      obtain ⟨hfirst, hu⟩ := hitem a as s b u hs hb
      have hrest := ih hu hc
      rw [List.forall_mem_cons]
      constructor
      · rintro ⟨ha, has⟩
        exact ⟨hfirst.mp ha, hrest.mp (has b u hb)⟩
      · rintro ⟨ha, has⟩
        refine ⟨hfirst.mpr ha, fun b' u' hb' => ?_⟩
        obtain ⟨-, rfl⟩ := Outcome.ok.inj (hb.symm.trans hb')
        exact hrest.mpr has

/-- A loop that keeps an invariant and whose items avoid the failures avoids them. -/
theorem avoids_each {f : α → Prog ρ ε σ β} {P : α → σ → Prop} (I : σ → Prop)
    (hitem : ∀ a s, I s → P a s → Avoids bad r s (f a)) (hkeep : ∀ a s b t, I s → f a r s = .ok b t → I t)
    {as : List α} (hs : I s) (h : Along f P r as s) : Avoids bad r s (each f as) := by
  induction as generalizing s with
  | nil => exact avoids_pure
  | cons a as ih =>
      obtain ⟨hfirst, hrest⟩ := h
      refine avoids_bind (hitem a s hs hfirst) ?_
      intro b t ht
      refine avoids_bind (ih (hkeep a s b t hs ht) (hrest b t ht)) ?_
      intro bs u _
      exact avoids_pure

end Lib.Rollback.Prog
