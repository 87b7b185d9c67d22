import SoroStream.Notes
import SoroStream.Identity

namespace SoroStream

open Lib Lib.Rollback Lib.Rollback.Prog Lib.Runs Contract

variable {host : Host} {env : Env host} {w w' : World} {c c' : Chain} {e : Event host} {a : Address}
  {ids : List StreamId} {events : List (Event host)}

def StreamCall.chosenNonces : StreamCall → List (Address × Nat)
  | .createStream args => [(args.sender, args.nonce.val)]
  | _ => []

def StreamCall.batchNumbers (a : Address) : StreamCall → List Nat
  | .batchCreateStream args => if args.sender = a then [args.nonce.val] else []
  | _ => []

def Chain.succeeded {α : Type} (f : StreamCall → List α) (c : Chain) : Event host → List α
  | .call env (.stream k) => if (k.exec env c.world).value?.isSome then f k else []
  | _ => []

abbrev takenNonces (c : Chain) (events : List (Event host)) : List (Address × Nat) :=
  outputs Chain.step (Chain.succeeded StreamCall.chosenNonces) c events

/-- The nonce of each successful `batch_create_stream` of one sender, in order. -/
abbrev batches (a : Address) (c : Chain) (events : List (Event host)) : List Nat :=
  outputs Chain.step (Chain.succeeded (StreamCall.batchNumbers a)) c events

theorem succeeded_cases {α : Type} (f : StreamCall → List α) (hmay : May c e) :
    c.succeeded f e = [] ∧ (c.step e).world.book.notes = c.world.book.notes ∨
      ∃ (env : Env host) (k : StreamCall) (ids : List StreamId) (w' : World), k.exec env c.world = .ok ids w' ∧
        c.succeeded f e = f k ∧ (c.step e).world.book.notes = k.noted c.world.book.notes := by
  rw [step_notes hmay]
  cases e with
  | call env call =>
      cases call with
      | stream k =>
          cases hx : k.exec env c.world with
          | ok ids w' => exact .inr ⟨env, k, ids, w', hx, by simp [Chain.succeeded, hx, Outcome.value?],
              by simp [Chain.noted, hx, Outcome.value?]⟩
          | err | trap => exact .inl ⟨by simp [Chain.succeeded, hx, Outcome.value?],
              by simp [Chain.noted, hx, Outcome.value?]⟩
      | config | view => exact .inl ⟨rfl, rfl⟩
  | treasury | tokens => exact .inl ⟨rfl, rfl⟩

/-- A call takes only nonces that are unused, and uses exactly those up. -/
theorem chosenNonces_spent {k : StreamCall} (h : k.exec env w = .ok ids w') :
    k.chosenNonces.Nodup ∧ (∀ p ∈ k.chosenNonces, w.book.notes.nonces p.1 p.2 = none) ∧
      ∀ p : Address × Nat, (k.noted w.book.notes).nonces p.1 p.2 ≠ none ↔
        w.book.notes.nonces p.1 p.2 ≠ none ∨ p ∈ k.chosenNonces := by
  cases k with
  | createStream args =>
      obtain ⟨_, _, hcreate, -, -⟩ := bind_ok.mp h
      obtain ⟨-, -, fees, hc, -⟩ := createStream_ok hcreate
      refine ⟨List.nodup_singleton _, ?_, ?_⟩
      · intro p hp
        rw [List.mem_singleton.mp hp]
        exact hc.unused
      · rintro ⟨b, n⟩
        simp only [StreamCall.noted, Notes.markNonce, StreamCall.chosenNonces, List.mem_singleton, Prod.mk.injEq]
        by_cases hb : b = args.sender
        · subst hb
          by_cases hn : n = args.nonce.val
          · simp [hn]
          · simp [hn]
        · simp [hb]
  | _ => exact ⟨List.nodup_nil, fun p hp => absurd hp List.not_mem_nil, fun p => by
      simp [StreamCall.chosenNonces, StreamCall.noted, Notes.countBatch, Notes.setDelegate]⟩

/-- A batch carries the number its sender is at, and moves it on. -/
theorem batchNumbers_counted {k : StreamCall} (h : k.exec env w = .ok ids w') (a : Address) :
    k.batchNumbers a = [] ∧ (k.noted w.book.notes).batchNonce a = w.book.notes.batchNonce a ∨
      k.batchNumbers a = [(w.book.notes.batchNonce a).getD 0] ∧
        (k.noted w.book.notes).batchNonce a = some ((w.book.notes.batchNonce a).getD 0 + 1) := by
  cases k with
  | batchCreateStream args =>
      have hnonce : args.nonce.val = (w.book.notes.batchNonce args.sender).getD 0 :=
        (batchCreateStream_ok h).2.1.nonce
      simp only [StreamCall.batchNumbers, StreamCall.noted, Notes.countBatch]
      by_cases hs : args.sender = a
      · subst hs
        exact .inr ⟨by rw [if_pos rfl, hnonce], by rw [Function.update_self, hnonce]⟩
      · exact .inl ⟨if_neg hs, Function.update_of_ne (Ne.symm hs) _ _⟩
  | _ => exact .inl ⟨rfl, rfl⟩

theorem nonceUsed_iff {n : Nat} : Storage.nonceUsed a n w = true ↔ w.book.notes.nonces a n ≠ none :=
  Option.isSome_iff_ne_none

theorem step_chosenNonces (hmay : May c e) :
    (c.succeeded StreamCall.chosenNonces e).Nodup ∧
      (∀ p ∈ c.succeeded StreamCall.chosenNonces e, ¬Storage.nonceUsed p.1 p.2 c.world = true) ∧
      ∀ p : Address × Nat, Storage.nonceUsed p.1 p.2 (c.step e).world = true ↔
        Storage.nonceUsed p.1 p.2 c.world = true ∨ p ∈ c.succeeded StreamCall.chosenNonces e := by
  simp only [nonceUsed_iff]
  rcases succeeded_cases StreamCall.chosenNonces hmay with ⟨hout, hnotes⟩ | ⟨env, k, ids, w', hok, hout, hnotes⟩
  · rw [hout, hnotes]
    exact ⟨List.nodup_nil, by simp, by simp⟩
  · rw [hout, hnotes]
    obtain ⟨hnodup, hunused, hafter⟩ := chosenNonces_spent hok
    exact ⟨hnodup, fun p hp hused => hused (hunused p hp), hafter⟩

theorem step_batchNumbers (hmay : May c e) (a : Address) :
    c.succeeded (StreamCall.batchNumbers a) e = [] ∧ getNonce a (c.step e).world = getNonce a c.world ∨
      c.succeeded (StreamCall.batchNumbers a) e = [getNonce a c.world] ∧
        getNonce a (c.step e).world = getNonce a c.world + 1 := by
  have hview : ∀ w : World, getNonce a w = (w.book.notes.batchNonce a).getD 0 := fun _ => rfl
  simp only [hview]
  rcases succeeded_cases (StreamCall.batchNumbers a) hmay with ⟨hout, hnotes⟩ | ⟨env, k, ids, w', hok, hout, hnotes⟩
  · exact .inl ⟨hout, by rw [hnotes]⟩
  · rw [hout, hnotes]
    rcases batchNumbers_counted hok a with ⟨hnone, hkept⟩ | ⟨hone, hmoved⟩
    · exact .inl ⟨hnone, by rw [hkept]⟩
    · exact .inr ⟨hone, by rw [hmoved]; rfl⟩

/-- Over a whole run from a new contract: no sender's nonce is taken twice by
`create_stream`, the ones in use are those that a successful call took, and the batches of
a sender are numbered 0, 1, 2 and so on up to what `get_nonce` tells. -/
theorem replay_protected (hfresh : Fresh host c) (hrun : SystemRun host c events c') :
    (takenNonces c events).Nodup ∧
    (∀ a n, Storage.nonceUsed a n c'.world = true ↔ (a, n) ∈ takenNonces c events) ∧
    ∀ a, batches a c events = List.range (getNonce a c'.world) := by
  have hstart : ∀ p : Address × Nat, ¬Storage.nonceUsed p.1 p.2 c.world = true := by
    intro p hused
    simp [Storage.nonceUsed, hfresh.book, Book.fresh] at hused
  have htaken := hrun.remembered (fun c (p : Address × Nat) => Storage.nonceUsed p.1 p.2 c.world = true) hstart
    fun _ _ hmay => step_chosenNonces hmay
  refine ⟨htaken.1, fun a n => htaken.2 (a, n), ?_⟩
  intro a
  refine hrun.numbered (fun c => getNonce a c.world) ?_ fun _ _ hmay => step_batchNumbers hmay a
  simp [getNonce, Storage.getBatchNonce, hfresh.book, Book.fresh]

namespace Sample

def repeated : List (Event site) :=
  [opening 0 0, opening 0 0, call [2] 15 (.batchCreateStream batchTerms), call [2] 16 (.batchCreateStream batchTerms)]

end Sample

theorem sample_replay_protected :
    (takenNonces Sample.genesis Sample.repeated).Nodup ∧
      batches (Sample.party 2) Sample.genesis Sample.repeated = [0] := by
  have h := replay_protected Sample.genesis_fresh (run_of_inOrder (by decide : inOrder 0 Sample.repeated = true))
  exact ⟨h.1, (h.2.2 (Sample.party 2)).trans (by decide +kernel)⟩

end SoroStream
