import SoroStream.Storage
import Mathlib.Algebra.BigOperators.Group.List.Basic

namespace SoroStream

open Lib Lib.Rollback Lib.Rollback.Prog

variable {host : Host} {env : Env host} {w w' w'' : World} {ts us : List Transfer}

/-- What a holder gives away, and gets, of one token in a list of transfers. -/
def spent (a token : Address) (ts : List Transfer) : Int :=
  (ts.map fun t => if t.token = token ∧ t.payer = a then t.amount else 0).sum

def received (a token : Address) (ts : List Transfer) : Int :=
  (ts.map fun t => if t.token = token ∧ t.payee = a then t.amount else 0).sum

def positive (t : Transfer) : List Transfer := if 0 < t.amount then [t] else []

@[simp] theorem spent_nil (a token : Address) : spent a token [] = 0 := rfl
@[simp] theorem received_nil (a token : Address) : received a token [] = 0 := rfl

theorem spent_cons (a token : Address) (t : Transfer) (ts : List Transfer) :
    spent a token (t :: ts) = (if t.token = token ∧ t.payer = a then t.amount else 0) + spent a token ts := by
  simp [spent]

theorem received_cons (a token : Address) (t : Transfer) (ts : List Transfer) :
    received a token (t :: ts) =
      (if t.token = token ∧ t.payee = a then t.amount else 0) + received a token ts := by
  simp [received]

@[simp] theorem spent_append (a token : Address) (ts us : List Transfer) :
    spent a token (ts ++ us) = spent a token ts + spent a token us := by
  simp [spent]

@[simp] theorem received_append (a token : Address) (ts us : List Transfer) :
    received a token (ts ++ us) = received a token ts + received a token us := by
  simp [received]

theorem spent_positive (a token : Address) (t : Transfer) :
    spent a token (positive t) = if t.token = token ∧ t.payer = a then max t.amount 0 else 0 := by
  by_cases h : 0 < t.amount
  · simp [positive, h, spent_cons, max_eq_left h.le]
  · simp [positive, h, max_eq_right (not_lt.mp h)]

theorem received_nonneg {a token : Address} (h : ∀ t ∈ ts, 0 ≤ t.amount) : 0 ≤ received a token ts := by
  induction ts with
  | nil => simp
  | cons t ts ih =>
      have ht := h t (by simp)
      have hts := ih (fun t ht => h t (by simp [ht]))
      rw [received_cons]
      split <;> omega

theorem mem_positive {t a : Transfer} (h : t ∈ positive a) : t = a := by
  unfold positive at h
  split at h
  · exact List.mem_singleton.mp h
  · simp at h

theorem self_mem_positive {t : Transfer} (h : 0 < t.amount) : t ∈ positive t := by
  rw [positive, if_pos h]
  exact List.mem_singleton_self t

theorem pos_of_mem_positive {t u : Transfer} (h : u ∈ positive t) : 0 < u.amount := by
  by_cases hp : 0 < t.amount <;> simp [positive, hp] at h
  subst h
  exact hp

theorem amount_nonneg_of_mem_positive {t u : Transfer} (h : u ∈ positive t) : 0 ≤ u.amount := (pos_of_mem_positive h).le

theorem foldl_move (b : Balances) (ts : List Transfer) (token a : Address) :
    ts.foldl Balances.move b token a = b token a - spent a token ts + received a token ts := by
  induction ts generalizing b with
  | nil => simp
  | cons t ts ih =>
      rw [List.foldl_cons, ih, spent_cons, received_cons]
      by_cases ht : t.token = token
      · subst ht
        simp only [Balances.move, if_true, true_and, eq_comm (a := a)]
        omega
      · simp only [Balances.move, ht, Ne.symm ht, if_false, false_and]
        omega

@[simp] theorem pay_balances (w : World) (ts : List Transfer) (token a : Address) :
    (w.pay ts).balances token a = w.balances token a - spent a token ts + received a token ts :=
  foldl_move w.balances ts token a

@[simp] theorem pay_config (w : World) (ts : List Transfer) : (w.pay ts).config = w.config := rfl
@[simp] theorem pay_pause (w : World) (ts : List Transfer) : (w.pay ts).pause = w.pause := rfl
@[simp] theorem pay_audit (w : World) (ts : List Transfer) : (w.pay ts).audit = w.audit := rfl
@[simp] theorem pay_book (w : World) (ts : List Transfer) : (w.pay ts).book = w.book := rfl
@[simp] theorem pay_treasury (w : World) (ts : List Transfer) : (w.pay ts).treasury = w.treasury := rfl
@[simp] theorem pay_wasm (w : World) (ts : List Transfer) : (w.pay ts).wasm = w.wasm := rfl
@[simp] theorem pay_log (w : World) (ts : List Transfer) : (w.pay ts).log = w.log ++ ts := rfl

@[simp] theorem pay_nil (w : World) : w.pay [] = w := by
  simp [World.pay]

theorem pay_pay (w : World) (ts us : List Transfer) : (w.pay ts).pay us = w.pay (ts ++ us) := by
  simp [World.pay]

theorem transferPositive_ok {t : Transfer} {u : Unit} :
    transferPositive t env w = .ok u w' ↔ (0 < t.amount → Payable env w t) ∧ w.pay (positive t) = w' := by
  by_cases h : 0 < t.amount
  · simp [transferPositive, positive, h, transfer_ok]
  · simp [transferPositive, positive, h]

/-- Money has moved and nothing else of the stream contract has: the log grew by
`ts`, and each of the two contracts holds at least what these transfers leave it.
The treasury contract's own storage is left open. -/
structure Moved (host : Host) (ts : List Transfer) (w w' : World) : Prop where
  config : w'.config = w.config
  pause : w'.pause = w.pause
  audit : w'.audit = w.audit
  book : w'.book = w.book
  wasm : w'.wasm = w.wasm
  log : w'.log = w.log ++ ts
  held : ∀ token, w.balances token host.contract - spent host.contract token ts +
    received host.contract token ts ≤ w'.balances token host.contract
  vault : ∀ token, w.balances token host.treasury - spent host.treasury token ts +
    received host.treasury token ts ≤ w'.balances token host.treasury

namespace Moved

theorem refl (w : World) : Moved host [] w w :=
  ⟨rfl, rfl, rfl, rfl, rfl, by simp, fun _ => by simp, fun _ => by simp⟩

theorem trans (h : Moved host ts w w') (h' : Moved host us w' w'') : Moved host (ts ++ us) w w'' := by
  refine ⟨h'.config.trans h.config, h'.pause.trans h.pause, h'.audit.trans h.audit,
    h'.book.trans h.book, h'.wasm.trans h.wasm, ?_, ?_, ?_⟩
  · rw [h'.log, h.log, List.append_assoc]
  · intro token
    have h₁ := h.held token
    have h₂ := h'.held token
    rw [spent_append, received_append]
    omega
  · intro token
    have h₁ := h.vault token
    have h₂ := h'.vault token
    rw [spent_append, received_append]
    omega

theorem pay (w : World) (ts : List Transfer) : Moved host ts w (w.pay ts) :=
  ⟨rfl, rfl, rfl, rfl, rfl, rfl, fun token => (pay_balances w ts token host.contract).ge,
    fun token => (pay_balances w ts token host.treasury).ge⟩

end Moved

theorem transferPositive_moved {t : Transfer} {u : Unit} (h : transferPositive t env w = .ok u w') :
    Moved host (positive t) w w' := by
  obtain ⟨-, rfl⟩ := transferPositive_ok.mp h
  exact Moved.pay w _

/-- A foreign contract moves no money of the log's and none of the contract's. -/
theorem callContract_moved {a : Address} {f : String} {body : Contract host Int} {v : Int}
    (hbody : ∀ w v w', body env w = .ok v w' → Moved host [] w w')
    (h : callContract a f body env w = .ok v w') : Moved host [] w w' := by
  unfold callContract at h
  split at h
  · simp at h
  · split at h
    · exact hbody _ _ _ h
    · simp only [bind_ok, read_ok, okOrHalt_ok, update_ok, pure_ok, and_assoc, exists_and_left, exists_eq_left',
        exists_const] at h
      obtain ⟨⟨v, b⟩, ha, -, rfl⟩ := h
      refine ⟨rfl, rfl, rfl, rfl, rfl, by simp, ?_, ?_⟩
      · intro token
        simpa using (env.foreign_keeps ha token).1
      · intro token
        simpa using (env.foreign_keeps ha token).2

theorem tryCall_moved {α : Type} {x : Contract host α} {u : Unit}
    (hx : ∀ v w', x env w = .ok v w' → Moved host [] w w')
    (h : tryCall x env w = .ok u w') : Moved host [] w w' := by
  rw [tryCall_ok] at h
  cases hr : x env w with
  | ok v t =>
      rw [hr, Outcome.commit_ok] at h
      subst h
      exact hx v t hr
  | err e t =>
      rw [hr, Outcome.commit_err] at h
      subst h
      exact Moved.refl w
  | trap =>
      rw [hr, Outcome.commit_trap] at h
      subst h
      exact Moved.refl w

end SoroStream
