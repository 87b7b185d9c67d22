import SoroStream.Lib.Rollback
import Mathlib.Data.List.Perm.Basic

namespace Lib.Rollback.Prog

variable {ρ ε σ α β : Type} {r : ρ} {f : α → Prog ρ ε σ β} {S : α → Prop} {I : σ → Prop} {R : σ → σ → Prop}
  {plan : α → σ → Option (β × (σ → σ))}

/-- In the states of `I`, and up to `R`, each item with `S` does what its plan says: it fails
where there is none, and otherwise returns the value and makes the change of the plan. The
change leaves the plans of the other items as they are, and changes commute. -/
structure Planned (r : ρ) (f : α → Prog ρ ε σ β) (S : α → Prop) (I : σ → Prop) (R : σ → σ → Prop)
    (plan : α → σ → Option (β × (σ → σ))) : Prop where
  refl : ∀ {s}, I s → R s s
  symm : ∀ {s t}, R s t → R t s
  trans : ∀ {s t u}, R s t → R t u → R s u
  keeps : ∀ {a s b t}, S a → I s → f a r s = .ok b t → I t
  runs : ∀ {a s b g}, S a → I s → plan a s = some (b, g) → ∃ t, f a r s = .ok b t ∧ R t (g s)
  only : ∀ {a s b t}, S a → I s → f a r s = .ok b t → ∃ g, plan a s = some (b, g)
  same : ∀ {a s t}, R s t → plan a s = plan a t
  congr : ∀ {a s b g t u}, plan a s = some (b, g) → R t u → R (g t) (g u)
  apart : ∀ {a a' s b g}, I s → a ≠ a' → plan a s = some (b, g) → plan a' (g s) = plan a' s
  comm : ∀ {a a' s b g b' g'}, I s → a ≠ a' → plan a s = some (b, g) → plan a' s = some (b', g') →
    R (g' (g s)) (g (g' s))

namespace Planned

variable {a a' : α} {s s' t u : σ} {b b' : β} {g : σ → σ} {as as' : List α} {bs : List β}

theorem planned (h : Planned r f S I R plan) (ha : S a) (hs : I s) (hok : f a r s = .ok b t) :
    ∃ g, plan a s = some (b, g) ∧ R t (g s) := by
  obtain ⟨g, hplan⟩ := h.only ha hs hok
  obtain ⟨u, hu, hR⟩ := h.runs ha hs hplan
  obtain ⟨-, rfl⟩ := Outcome.ok.inj (hok.symm.trans hu)
  exact ⟨g, hplan, hR⟩

theorem item_congr (h : Planned r f S I R plan) (ha : S a) (hs : I s) (hs' : I s') (hR : R s s')
    (hok : f a r s = .ok b t) : ∃ t', f a r s' = .ok b t' ∧ R t t' := by
  obtain ⟨g, hplan, ht⟩ := h.planned ha hs hok
  obtain ⟨t', hok', ht'⟩ := h.runs ha hs' ((h.same hR).symm.trans hplan)
  exact ⟨t', hok', h.trans ht (h.trans (h.congr hplan hR) (h.symm ht'))⟩

theorem each_congr (h : Planned r f S I R plan) (has : ∀ a ∈ as, S a) (hs : I s) (hs' : I s') (hR : R s s')
    (hok : each f as r s = .ok bs t) : ∃ t', each f as r s' = .ok bs t' ∧ R t t' := by
  induction as generalizing s s' bs with
  | nil =>
      obtain ⟨rfl, rfl⟩ := each_nil.mp hok
      exact ⟨s', rfl, hR⟩
  | cons a as ih =>
      obtain ⟨b, u, bs, hfirst, hrest, rfl⟩ := each_cons.mp hok
      have ha := has a (List.mem_cons_self ..)
      obtain ⟨u', hfirst', hu⟩ := h.item_congr ha hs hs' hR hfirst
      obtain ⟨t', hrest', ht⟩ := ih (fun a ha => has a (List.mem_cons_of_mem _ ha)) (h.keeps ha hs hfirst)
        (h.keeps ha hs' hfirst') hu hrest
      exact ⟨t', each_cons.mpr ⟨b, u', bs, hfirst', hrest', rfl⟩, ht⟩

theorem item_swap (h : Planned r f S I R plan) (ha : S a) (ha' : S a') (hne : a ≠ a') (hs : I s)
    (hok : f a r s = .ok b t) (hok' : f a' r t = .ok b' u) :
    ∃ t' u', f a' r s = .ok b' t' ∧ f a r t' = .ok b u' ∧ R u u' := by
  obtain ⟨g, hplan, ht⟩ := h.planned ha hs hok
  obtain ⟨g', hplan', hu⟩ := h.planned ha' (h.keeps ha hs hok) hok'
  have hfirst : plan a' s = some (b', g') := ((h.same ht).trans (h.apart hs hne hplan)).symm.trans hplan'
  obtain ⟨t', hok₁, ht'⟩ := h.runs ha' hs hfirst
  have hsecond : plan a t' = some (b, g) := ((h.same ht').trans (h.apart hs hne.symm hfirst)).trans hplan
  obtain ⟨u', hok₂, hu'⟩ := h.runs ha (h.keeps ha' hs hok₁) hsecond
  refine ⟨t', u', hok₁, hok₂, ?_⟩
  have hleft : R u (g' (g s)) := h.trans hu (h.congr hplan' ht)
  have hright : R u' (g (g' s)) := h.trans hu' (h.congr hplan ht')
  exact h.trans hleft (h.trans (h.comm hs hne hplan hfirst) (h.symm hright))

/-- The items in any order: each returns the same, and the last states are related. -/
theorem each_perm (h : Planned r f S I R plan) (hperm : as.Perm as') (has : ∀ a ∈ as, S a) (hnodup : as.Nodup)
    (hs : I s) (hok : each f as r s = .ok bs t) :
    ∃ bs' t', each f as' r s = .ok bs' t' ∧ R t t' ∧ (as.zip bs).Perm (as'.zip bs') := by
  induction hperm generalizing s bs t with
  | nil =>
      obtain ⟨rfl, rfl⟩ := each_nil.mp hok
      exact ⟨[], s, rfl, h.refl hs, .refl _⟩
  | @cons a as as' _ ih =>
      obtain ⟨b, u, bs, hfirst, hrest, rfl⟩ := each_cons.mp hok
      have ha := has a (List.mem_cons_self ..)
      obtain ⟨bs', t', hrest', ht, hzip⟩ := ih (fun a ha => has a (List.mem_cons_of_mem _ ha))
        (List.nodup_cons.mp hnodup).2 (h.keeps ha hs hfirst) hrest
      exact ⟨b :: bs', t', each_cons.mpr ⟨b, u, bs', hfirst, hrest', rfl⟩, ht, hzip.cons (a, b)⟩
  | @swap a a' as =>
      obtain ⟨b', u, bs, hfirst, hmore, rfl⟩ := each_cons.mp hok
      obtain ⟨b, v, bs, hsecond, hrest, rfl⟩ := each_cons.mp hmore
      have ha' := has a' (List.mem_cons_self ..)
      have ha := has a (List.mem_cons_of_mem _ (List.mem_cons_self ..))
      have hne : a' ≠ a := by
        rintro rfl
        exact (List.nodup_cons.mp hnodup).1 (List.mem_cons_self ..)
      obtain ⟨u', v', hfirst', hsecond', hv⟩ := h.item_swap ha' ha hne hs hfirst hsecond
      have hu := h.keeps ha' hs hfirst
      have hu' := h.keeps ha hs hfirst'
      have hothers : ∀ c ∈ as, S c := fun c hc => has c (List.mem_cons_of_mem _ (List.mem_cons_of_mem _ hc))
      obtain ⟨t', hrest', ht⟩ := h.each_congr hothers (h.keeps ha hu hsecond) (h.keeps ha' hu' hsecond') hv hrest
      refine ⟨b :: b' :: bs, t', each_cons.mpr ⟨b, u', b' :: bs, hfirst', ?_, rfl⟩, ht, .swap ..⟩
      exact each_cons.mpr ⟨b', v', bs, hsecond', hrest', rfl⟩
  | @trans as as' as'' hfirst _ ih ih' =>
      obtain ⟨bs', t', hok', ht, hzip⟩ := ih has hnodup hs hok
      have has' : ∀ a ∈ as', S a := fun a ha => has a (hfirst.mem_iff.mpr ha)
      obtain ⟨bs'', t'', hok'', ht', hzip'⟩ := ih' has' (hfirst.nodup_iff.mp hnodup) hs hok'
      exact ⟨bs'', t'', hok'', h.trans ht ht', hzip.trans hzip'⟩

end Planned

end Lib.Rollback.Prog
