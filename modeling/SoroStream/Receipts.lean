import SoroStream.Erasure
import SoroStream.Frame
import SoroStream.Lib.Journal

namespace SoroStream

open Lib Lib.Rollback Lib.Rollback.Prog Lib.Runs Contract

variable {host : Host} {env : Env host}

structure Receipt where
  time : Nat
  events : List Published

def Chain.receipts (c : Chain) : Event host → List Receipt
  | .call env call =>
      match call.emit env (c.world, []) with
      | .ok _ s => [⟨env.now, s.2⟩]
      | _ => []
  | _ => []

def journal (c : Chain) (events : List (Event host)) : List Receipt := outputs Chain.step Chain.receipts c events

def published (c : Chain) (events : List (Event host)) : List Published := (journal c events).flatMap Receipt.events

theorem published_snoc {c c' : Chain} {events : List (Event host)} (h : SystemRun host c events c') (e : Event host) :
    published c (events ++ [e]) = published c events ++ (c'.receipts e).flatMap Receipt.events := by
  rw [published, published, journal, journal, h.outputs_snoc, List.flatMap_append]

structure SameBooks (w w' : World) : Prop where
  config : w'.config = w.config
  audit : w'.audit = w.audit
  book : w'.book = w.book

instance : IsPreorder World SameBooks where
  refl _ := ⟨rfl, rfl, rfl⟩
  trans _ _ _ h h' := ⟨h'.config.trans h.config, h'.audit.trans h.audit, h'.book.trans h.book⟩

theorem sameBooks_treasury : KeptByTreasury env SameBooks where
  cells _ := keeps_update fun _ => ⟨rfl, rfl, rfl⟩
  payout _ _ _ _ _ := ⟨rfl, rfl, rfl⟩

/-- An event is a call that succeeds and leaves its receipt, or it leaves none. -/
theorem receipts_cases (c : Chain) (e : Event host) :
    (c.receipts e = [] ∧ SameBooks c.world (c.step e).world ∧ ∀ env call, e = .call env call →
      ∀ ids w', call.exec env c.world ≠ .ok ids w') ∨
      ∃ env call ids w' es, e = .call env call ∧ call.emit env (c.world, []) = .ok ids (w', es) ∧
        call.exec env c.world = .ok ids w' ∧ (c.step e).world = w' ∧ c.receipts e = [⟨env.now, es⟩] := by
  cases e with
  | call env call =>
      have herase := (call_erases : Erases (call.emit : Traced host _) call.exec).forget_eq env (c.world, [])
      cases hemit : call.emit env (c.world, []) with
      | ok ids s =>
          rw [hemit] at herase
          have hexec : call.exec env c.world = .ok ids s.1 := herase.symm
          exact .inr ⟨env, call, ids, s.1, s.2, rfl, hemit, hexec, by simp [Chain.step, hexec],
            by simp [Chain.receipts, hemit]⟩
      | err e s =>
          rw [hemit] at herase
          have hexec : call.exec env c.world = .err e s.1 := herase.symm
          refine .inl ⟨by simp [Chain.receipts, hemit], ?_, ?_⟩
          · simpa [Chain.step, hexec] using refl_of SameBooks c.world
          · rintro _ _ ⟨⟩ ids w' h
            rw [hexec] at h
            cases h
      | trap =>
          rw [hemit] at herase
          have hexec : call.exec env c.world = .trap := herase.symm
          refine .inl ⟨by simp [Chain.receipts, hemit], ?_, ?_⟩
          · simpa [Chain.step, hexec] using refl_of SameBooks c.world
          · rintro _ _ ⟨⟩ ids w' h
            rw [hexec] at h
            cases h
  | treasury env call =>
      exact .inl ⟨rfl, Keeps.commit (treasuryCall_keeps sameBooks_treasury call) c.world, by simp⟩
  | tokens time b => exact .inl ⟨rfl, ⟨rfl, rfl, rfl⟩, by simp⟩

end SoroStream
