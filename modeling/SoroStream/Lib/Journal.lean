import SoroStream.Lib.Runs

namespace Lib.Runs

variable {σ ε τ ι : Type} {may : σ → ε → Prop} {step : σ → ε → σ} {s₀ s : σ} {es : List ε}

/-- Read a journal line by line. The reader gives up at a line that makes no sense to it. -/
def replay (read : ι → τ → Option ι) : ι → List τ → Option ι
  | i, [] => some i
  | i, line :: lines => (read i line).bind fun i' => replay read i' lines

variable {read : ι → τ → Option ι}

@[simp] theorem replay_nil (i : ι) : replay read i [] = some i := rfl

@[simp] theorem replay_cons (i : ι) (line : τ) (lines : List τ) :
    replay read i (line :: lines) = (read i line).bind fun i' => replay read i' lines := rfl

theorem replay_single (i : ι) (line : τ) : replay read i [line] = read i line := by
  rw [replay_cons]
  cases read i line <;> rfl

theorem replay_append (i : ι) (lines lines' : List τ) :
    replay read i (lines ++ lines') = (replay read i lines).bind fun i' => replay read i' lines' := by
  induction lines generalizing i with
  | nil => rfl
  | cons line lines ih =>
      rw [List.cons_append, replay_cons, replay_cons]
      cases read i line with
      | none => rfl
      | some i' => exact ih i'

theorem replay_trans {i j k : ι} {lines lines' : List τ} (h : replay read i lines = some j)
    (h' : replay read j lines' = some k) : replay read i (lines ++ lines') = some k := by
  rw [replay_append, h]
  exact h'

theorem replay_skip {i : ι} {lines : List τ} (h : ∀ line ∈ lines, read i line = some i) :
    replay read i lines = some i := by
  induction lines with
  | nil => rfl
  | cons line lines ih =>
      rw [replay_cons, h line (List.mem_cons_self ..)]
      exact ih fun line' hmem => h line' (List.mem_cons_of_mem line hmem)

/-- A reader that follows every event of a machine follows its runs: from what the events
put out it knows what can be seen of the state. -/
theorem Run.replay {out : σ → ε → List τ} (seen : σ → ι) (h : Run may step s₀ es s)
    (hstep : ∀ es s e, Run may step s₀ es s → may s e → Runs.replay read (seen s) (out s e) = some (seen (step s e))) :
    Runs.replay read (seen s₀) (outputs step out s₀ es) = some (seen s) := by
  induction h with
  | nil => rfl
  | @snoc es s e hr hm ih =>
      rw [hr.outputs_snoc]
      exact replay_trans ih (hstep es s e hr hm)

end Lib.Runs
