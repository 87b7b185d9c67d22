import Mathlib.Data.Finmap

namespace Lib

variable {κ α : Type} [DecidableEq κ] {R R' : α → α → Prop} {new new' : List κ} {m m' m'' : Finmap fun _ : κ => α}
  {k : κ} {a b : α}

/-- Outside the keys in `new` every entry has an older self, to which it is related. -/
def Inherits (R : α → α → Prop) (new : List κ) (before after : Finmap fun _ : κ => α) : Prop :=
  ∀ k, k ∉ new → ∀ b, after.lookup k = some b → ∃ a, before.lookup k = some a ∧ R a b

namespace Inherits

theorem imp (h : Inherits R new m m') (hR : ∀ a b, R a b → R' a b) : Inherits R' new m m' := by
  intro k hk b hb
  obtain ⟨a, ha, hab⟩ := h k hk b hb
  exact ⟨a, ha, hR a b hab⟩

theorem add (hR : ∀ a, R a a) : Inherits R [k] m (m.insert k a) := by
  intro j hj b hb
  rw [Finmap.lookup_insert_of_ne _ (List.ne_of_not_mem_cons hj)] at hb
  exact ⟨b, hb, hR b⟩

theorem refl (hR : ∀ a, R a a) (m : Finmap fun _ : κ => α) : Inherits R new m m := fun _ _ b hb => ⟨b, hb, hR b⟩

theorem trans (hR : ∀ {a b c}, R a b → R b c → R a c) (h : Inherits R new m m') (h' : Inherits R new' m' m'') :
    Inherits R (new ++ new') m m'' := by
  intro k hk c hc
  rw [List.mem_append, not_or] at hk
  obtain ⟨b, hb, hbc⟩ := h' k hk.2 c hc
  obtain ⟨a, ha, hab⟩ := h k hk.1 b hb
  exact ⟨a, ha, hR hab hbc⟩

theorem erase (hR : ∀ a, R a a) (k : κ) : Inherits R new m (m.erase k) := by
  intro j _ b hb
  by_cases hj : j = k
  · subst hj
    rw [Finmap.lookup_erase] at hb
    exact absurd hb (Option.some_ne_none b).symm
  · rw [Finmap.lookup_erase_ne hj] at hb
    exact ⟨b, hb, hR b⟩

theorem save (hR : ∀ a, R a a) (ha : m.lookup k = some a) (hab : R a b) : Inherits R new m (m.insert k b) := by
  intro j _ c hc
  by_cases hj : j = k
  · subst hj
    rw [Finmap.lookup_insert] at hc
    obtain rfl := Option.some.inj hc
    exact ⟨a, ha, hab⟩
  · rw [Finmap.lookup_insert_of_ne _ hj] at hc
    exact ⟨c, hc, hR c⟩

end Inherits

end Lib
