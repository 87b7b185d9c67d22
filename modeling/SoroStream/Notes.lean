import SoroStream.Frame

namespace SoroStream

open Lib Lib.Rollback Lib.Rollback.Prog Lib.Runs Contract

variable {host : Host} {env : Env host} {w w' : World} {id j : StreamId} {ids : List StreamId}

/-- What a book keeps beside records and indexes: the nonces used, the batches counted
and the delegates named. -/
structure Notes where
  nonces : Address → Nat → Option Bool
  batchNonce : Address → Option Nat
  delegates : StreamId → Option Address

namespace Notes

def markNonce (n : Notes) (sender : Address) (nonce : Nat) : Notes :=
  { n with nonces := Function.update n.nonces sender (Function.update (n.nonces sender) nonce (some true)) }

def countBatch (n : Notes) (sender : Address) (count : Nat) : Notes :=
  { n with batchNonce := Function.update n.batchNonce sender (some count) }

def setDelegate (n : Notes) (id : StreamId) (operator : Option Address) : Notes :=
  { n with delegates := Function.update n.delegates id operator }

@[simp] theorem setDelegate_self (n : Notes) (id : StreamId) (operator : Option Address) :
    (n.setDelegate id operator).delegates id = operator :=
  Function.update_self ..

theorem setDelegate_of_ne (n : Notes) (operator : Option Address) (hne : id ≠ j) :
    (n.setDelegate j operator).delegates id = n.delegates id :=
  Function.update_of_ne hne ..

end Notes

namespace Book

def notes (b : Book) : Notes := ⟨b.nonces, b.batchNonce, b.delegates⟩

@[simp] theorem save_notes (b : Book) (s : Stream) : (b.save s).notes = b.notes := rfl
@[simp] theorem close_notes (b : Book) (id : StreamId) (s : Stream) : (b.close id s).notes = b.notes := rfl
@[simp] theorem add_notes (b : Book) (s : Stream) : (b.add s).notes = b.notes := rfl
@[simp] theorem handOver_notes (b : Book) (id : StreamId) (old new : Address) :
    (b.handOver id old new).notes = b.notes := rfl
@[simp] theorem markNonce_notes (b : Book) (sender : Address) (nonce : Nat) :
    (b.markNonce sender nonce).notes = b.notes.markNonce sender nonce := rfl
@[simp] theorem countBatch_notes (b : Book) (sender : Address) (count : Nat) :
    (b.countBatch sender count).notes = b.notes.countBatch sender count := rfl
@[simp] theorem setDelegate_notes (b : Book) (id : StreamId) (operator : Option Address) :
    (b.setDelegate id operator).notes = b.notes.setDelegate id operator := rfl

@[simp] theorem settle_notes (b : Book) (id : StreamId) (s : Stream) (out : Option Stream) :
    (b.settle id s out).notes = b.notes := by
  cases out with
  | none => rfl
  | some s' => rfl

end Book

def StreamCall.noted : StreamCall → Notes → Notes
  | .createStream args, n => n.markNonce args.sender args.nonce.val
  | .batchCreateStream args, n => n.countBatch args.sender (args.nonce.val + 1)
  | .delegate _ id operator, n => n.setDelegate id (some operator)
  | .revokeDelegate _ id, n => n.setDelegate id none
  | .archiveStream id _, n => n.setDelegate id none
  | _, n => n

theorem withdrawal_notes {single : Bool} {s : Stream} {claim : Int} {w₁ : World} {out : Option Stream}
    {us : List Transfer} (h : Withdrawal env w single id s claim w₁ out us) :
    (Withdrawal.result w₁ id s claim env.now out us).book.notes = w.book.notes := by
  rw [Withdrawal.result, withBook_book, Book.settle_notes, h.paid.book]

theorem batchCreateItem_notes {a : BatchArgs} {entry : BatchItem × StreamId} {newId : StreamId}
    (h : batchCreateItem a env.now (env.now + a.durationSeconds.val) entry env w = .ok newId w') :
    w'.book.notes = w.book.notes := by
  obtain ⟨-, -, -, rfl⟩ := batchCreateItem_ok h
  rw [withBook_book, Book.add_notes]

/-- A pass over a list that makes no note at any item makes none. -/
theorem each_notes {α β : Type} {f : α → Contract host β} {as : List α} {bs : List β}
    (hstep : ∀ a ∈ as, ∀ w b w', f a env w = .ok b w' → w'.book.notes = w.book.notes)
    (h : each f as env w = .ok bs w') : w'.book.notes = w.book.notes :=
  each_rel (fun w w' : World => w'.book.notes = w.book.notes) (fun _ => rfl) (fun h h' => h'.trans h) hstep h

theorem streamCall_notes {k : StreamCall} (h : k.exec env w = .ok ids w') :
    w'.book.notes = k.noted w.book.notes := by
  cases k with
  | createStream args =>
      obtain ⟨_, _, h, -, rfl⟩ := bind_ok.mp h
      obtain ⟨-, -, fees, -, rfl⟩ := createStream_ok h
      rfl
  | batchCreateStream args =>
      obtain ⟨-, -, hitems⟩ := batchCreateStream_ok h
      exact each_notes (fun _ _ _ _ _ h => batchCreateItem_notes h) hitems
  | partialCancelStream id caller cancelAmount =>
      obtain ⟨_, _, h, -, rfl⟩ := bind_ok.mp h
      obtain ⟨-, s, earned, streamed, -, -, -, rfl⟩ := partialCancelStream_ok h
      rfl
  | withdraw id recipient =>
      obtain ⟨_, _, h, -, rfl⟩ := bind_ok.mp h
      obtain ⟨-, s, claim, w₁, out, us, -, hw, rfl⟩ := withdraw_ok h
      exact (withdrawal_notes hw).trans rfl
  | batchWithdraw ids recipient =>
      obtain ⟨_, _, h, -, rfl⟩ := bind_ok.mp h
      obtain ⟨-, hauth, hitems⟩ := batchWithdraw_ok h
      refine (each_notes ?_ hitems).trans rfl
      intro id _ w claim w' h
      obtain ⟨s, w₁, out, us, -, hw, rfl⟩ := batchWithdrawItem_ok hauth h
      exact withdrawal_notes hw
  | cancelStream id caller =>
      obtain ⟨_, _, h, -, rfl⟩ := bind_ok.mp h
      obtain ⟨-, s, amount, -, -, -, -, -, rfl⟩ := cancelStream_ok.mp h
      rfl
  | batchCancelStream ids sender =>
      obtain ⟨_, _, h, -, rfl⟩ := bind_ok.mp h
      refine each_notes ?_ (batchCancelStream_ok h).2
      intro id _ w result w' h
      rcases batchCancelItem_cases h with rfl | ⟨s, amount, -, -, -, -, -, rfl⟩
      · rfl
      · rfl
  | recipientTerminate id recipient =>
      obtain ⟨_, _, h, -, rfl⟩ := bind_ok.mp h
      obtain ⟨-, -, s, amount, -, -, -, -, -, -, rfl⟩ := recipientTerminate_ok.mp h
      rfl
  | transferRecipient id current recipient =>
      obtain ⟨_, _, h, -, rfl⟩ := bind_ok.mp h
      obtain ⟨-, s, claim, w₁, -, hh, rfl⟩ := transferRecipient_ok h
      rw [withBook_book, HandOver.book, Book.handOver_notes, Book.save_notes, hh.paid.book]
      rfl
  | topUp id caller token amount =>
      obtain ⟨_, _, h, -, rfl⟩ := bind_ok.mp h
      obtain ⟨-, s, -, -, rfl⟩ := topUp_ok h
      rfl
  | pauseStream id sender =>
      obtain ⟨_, _, h, -, rfl⟩ := bind_ok.mp h
      obtain ⟨-, s, -, -, -, -, rfl⟩ := pauseStream_ok h
      rfl
  | resumeStream id sender =>
      obtain ⟨_, _, h, -, rfl⟩ := bind_ok.mp h
      obtain ⟨-, s, -, -, -, -, rfl⟩ := resumeStream_ok h
      rfl
  | archiveStream id caller =>
      obtain ⟨_, _, h, -, rfl⟩ := bind_ok.mp h
      obtain ⟨s, -, rfl⟩ := archiveStream_ok h
      rfl
  | delegate sender id operator =>
      obtain ⟨_, _, h, -, rfl⟩ := bind_ok.mp h
      obtain ⟨s, -, -, -, rfl⟩ := delegate_ok h
      rfl
  | revokeDelegate sender id =>
      obtain ⟨_, _, h, -, rfl⟩ := bind_ok.mp h
      obtain ⟨s, -, -, -, rfl⟩ := revokeDelegate_ok h
      rfl
  | updateMetadata sender id metadata =>
      obtain ⟨_, _, h, -, rfl⟩ := bind_ok.mp h
      obtain ⟨s, -, -, -, -, rfl⟩ := updateMetadata_ok h
      rfl
  | cancelAutoRenew sender id =>
      obtain ⟨_, _, h, -, rfl⟩ := bind_ok.mp h
      obtain ⟨s, -, -, -, rfl⟩ := cancelAutoRenew_ok h
      rfl

def Chain.noted (c : Chain) : Event host → Notes → Notes
  | .call env (.stream k), n => if (k.exec env c.world).value?.isSome then k.noted n else n
  | _, n => n

theorem step_notes {c : Chain} {e : Event host} (hmay : May c e) :
    (c.step e).world.book.notes = c.noted e c.world.book.notes := by
  rcases step_cases hmay with ⟨-, haside⟩ | ⟨env, k, _, _, rfl, hok, -, -, -, -⟩
  · have hsame : (c.step e).world.book.notes = c.world.book.notes := congrArg Book.notes haside.book
    cases e with
    | call env call =>
        cases call with
        | stream k =>
            cases hx : k.exec env c.world with
            | ok ids w' =>
                rw [Chain.noted, hx]
                simp only [Chain.step, Call.exec, hx, Outcome.commit_ok]
                exact streamCall_notes hx
            | err | trap =>
                rw [Chain.noted, hx]
                exact hsame
        | config | view => exact hsame
    | treasury | tokens => exact hsame
  · rw [Chain.noted, hok]
    exact streamCall_notes hok

end SoroStream
