import SoroStream.Terminal
import SoroStream.Notes

namespace SoroStream

open Lib Lib.Rollback Lib.Rollback.Prog Lib.Runs Contract

variable {host : Host} {env : Env host} {w w' w'' : World} {c c' : Chain} {id : StreamId} {s : Stream}
  {e : Event host} {events : List (Event host)}

inductive Party (w : World) (id : StreamId) (s : Stream) : Address → Prop
  | sender : Party w id s s.sender
  | recipient : Party w id s s.recipient
  | delegate {a : Address} (h : w.book.delegates id = some a) : Party w id s a

def Foreign (env : Env host) (w : World) (id : StreamId) (s : Stream) : Prop :=
  ∀ a, Party w id s a → ¬env.auths a = true

/-- Calls that configure the contract may be signed by anybody. -/
def Event.Foreign (w : World) (id : StreamId) (s : Stream) : Event host → Prop
  | .call env (.stream _) => SoroStream.Foreign env w id s
  | _ => True

structure LeftAlone (id : StreamId) (w w' : World) : Prop where
  idle : Idle id w w'
  delegate : w'.book.delegates id = w.book.delegates id

namespace LeftAlone

theorem refl (w : World) : LeftAlone id w w := ⟨.refl w, rfl⟩

theorem trans (h : LeftAlone id w w') (h' : LeftAlone id w' w'') : LeftAlone id w w'' :=
  ⟨h.idle.trans h'.idle, h'.delegate.trans h.delegate⟩

theorem foreign (h : LeftAlone id w w') (he : e.Foreign w id s) : e.Foreign w' id s := by
  cases e with
  | call env k =>
      cases k with
      | stream k =>
          intro a ha
          apply he a
          cases ha with
          | sender => exact .sender
          | recipient => exact .recipient
          | delegate hd => exact .delegate (h.delegate ▸ hd)
      | config | view => trivial
  | treasury | tokens => trivial

end LeftAlone

section

variable (hnobody : Foreign env w id s) (hs : w.book.streams.lookup id = some s)
include hnobody

theorem Foreign.sender : ¬env.auths s.sender = true := hnobody _ .sender

theorem Foreign.recipient : ¬env.auths s.recipient = true := hnobody _ .recipient

theorem Foreign.caller {caller : Address} (hcaller : s.sender = caller ∨ w.book.delegates id = some caller) :
    ¬env.auths caller = true := by
  rcases hcaller with rfl | hdelegate
  · exact hnobody.sender
  · exact hnobody _ (.delegate hdelegate)

include hs

theorem Foreign.sender_of_stored {r : Stream} (hr : w.book.streams.lookup id = some r)
    (hauth : env.auths r.sender = true) : False := by
  obtain rfl := Option.some.inj (hs.symm.trans hr)
  exact hnobody.sender hauth

theorem Foreign.recipient_of_stored {r : Stream} (hr : w.book.streams.lookup id = some r)
    (hauth : env.auths r.recipient = true) : False := by
  obtain rfl := Option.some.inj (hs.symm.trans hr)
  exact hnobody.recipient hauth

theorem Foreign.caller_of_stored {r : Stream} {caller : Address} (hr : w.book.streams.lookup id = some r)
    (hcaller : r.sender = caller ∨ w.book.delegates id = some caller) (hauth : env.auths caller = true) : False := by
  obtain rfl := Option.some.inj (hs.symm.trans hr)
  exact hnobody.caller hcaller hauth

theorem streamCall_foreign_idle (hw : Accounts env.now w.book.streams) {call : StreamCall} {made : List StreamId}
    (hmade : id ∉ made) (h : call.exec env w = .ok made w') : Idle id w w' := by
  by_cases htarget : id ∉ call.targets
  · exact streamCall_idle hw hs htarget hmade h
  rw [not_not] at htarget
  have hs' : (w.awake env.now).book.streams.lookup id = some s := hs
  cases call with
  | createStream | batchCreateStream => exact absurd htarget List.not_mem_nil
  | withdraw j recipient =>
      obtain rfl := List.mem_singleton.mp htarget
      obtain ⟨_, _, h, -, rfl⟩ := bind_ok.mp h
      obtain ⟨-, r, claim, w₁, out, us, -, hwd, -⟩ := withdraw_ok h
      exact (hnobody.recipient_of_stored hs hwd.stored hwd.signed).elim
  | batchWithdraw ids recipient =>
      obtain ⟨_, _, h, -, rfl⟩ := bind_ok.mp h
      obtain ⟨-, hauth, hitems⟩ := batchWithdraw_ok h
      refine Idle.of_awake (batchWithdraw_idle hauth hw ?_ hitems)
      -- an item about the stream would find its recipient among the signers
      intro _ v claim v' hbefore hitem
      obtain ⟨r, w₁, out, us, -, hwd, rfl⟩ := batchWithdrawItem_ok hauth hitem
      obtain rfl := Option.some.inj (hs'.symm.trans (hbefore.record.symm.trans hwd.stored))
      exact absurd hwd.signed hnobody.recipient
  | cancelStream j caller =>
      obtain rfl := List.mem_singleton.mp htarget
      obtain ⟨_, _, h, -, rfl⟩ := bind_ok.mp h
      obtain ⟨hauth, r, amount, hr, hcaller, -⟩ := cancelStream_ok.mp h
      exact (hnobody.caller_of_stored hs hr hcaller hauth).elim
  | batchCancelStream ids sender =>
      obtain ⟨_, _, h, -, rfl⟩ := bind_ok.mp h
      have hauth := (batchCancelStream_ok h).1
      refine batchCancelStream_idle hw hs ?_ h
      rintro - rfl
      exact absurd hauth hnobody.sender
  | recipientTerminate j recipient =>
      obtain rfl := List.mem_singleton.mp htarget
      obtain ⟨_, _, h, -, rfl⟩ := bind_ok.mp h
      obtain ⟨-, hauth, r, amount, hr, rfl, -⟩ := recipientTerminate_ok.mp h
      exact (hnobody.recipient_of_stored hs hr hauth).elim
  | transferRecipient j current recipient =>
      obtain rfl := List.mem_singleton.mp htarget
      obtain ⟨_, _, h, -, rfl⟩ := bind_ok.mp h
      obtain ⟨-, r, claim, w₁, -, hh, -⟩ := transferRecipient_ok h
      exact (hnobody.recipient_of_stored hs hh.stored hh.signed).elim
  | partialCancelStream j caller cancelAmount =>
      obtain rfl := List.mem_singleton.mp htarget
      obtain ⟨newId, _, h, -, rfl⟩ := bind_ok.mp h
      obtain ⟨hauth, r, earned, streamed, hcaller, -, hsplit, -⟩ := partialCancelStream_ok h
      exact (hnobody.caller_of_stored hs hsplit.stored hcaller hauth).elim
  | topUp j caller token amount =>
      obtain rfl := List.mem_singleton.mp htarget
      obtain ⟨_, _, h, -, rfl⟩ := bind_ok.mp h
      obtain ⟨-, r, hcaller, ht, -⟩ := topUp_ok h
      exact (hnobody.caller_of_stored hs ht.stored hcaller ht.signed).elim
  | pauseStream j sender =>
      obtain rfl := List.mem_singleton.mp htarget
      obtain ⟨_, _, h, -, rfl⟩ := bind_ok.mp h
      obtain ⟨-, r, hr, -, hauth, -⟩ := pauseStream_ok h
      exact (hnobody.sender_of_stored hs hr hauth).elim
  | resumeStream j sender =>
      obtain rfl := List.mem_singleton.mp htarget
      obtain ⟨_, _, h, -, rfl⟩ := bind_ok.mp h
      obtain ⟨-, r, hr, -, hauth, -⟩ := resumeStream_ok h
      exact (hnobody.sender_of_stored hs hr hauth).elim
  | archiveStream j caller =>
      obtain rfl := List.mem_singleton.mp htarget
      obtain ⟨_, _, h, -, rfl⟩ := bind_ok.mp h
      obtain ⟨r, harchival, -⟩ := archiveStream_ok h
      rcases harchival.signed with hauth | hauth
      · exact (hnobody.sender_of_stored hs harchival.stored hauth).elim
      · exact (hnobody.recipient_of_stored hs harchival.stored hauth).elim
  | delegate sender j operator =>
      obtain ⟨_, _, h, -, rfl⟩ := bind_ok.mp h
      obtain ⟨r, -, -, -, rfl⟩ := delegate_ok h
      exact ⟨rfl, [], by simp, by simp⟩
  | revokeDelegate sender j =>
      obtain ⟨_, _, h, -, rfl⟩ := bind_ok.mp h
      obtain ⟨r, -, -, -, rfl⟩ := revokeDelegate_ok h
      exact ⟨rfl, [], by simp, by simp⟩
  | updateMetadata sender j metadata =>
      obtain rfl := List.mem_singleton.mp htarget
      obtain ⟨_, _, h, -, rfl⟩ := bind_ok.mp h
      obtain ⟨r, hr, -, hauth, -⟩ := updateMetadata_ok h
      exact (hnobody.sender_of_stored hs hr hauth).elim
  | cancelAutoRenew sender j =>
      obtain rfl := List.mem_singleton.mp htarget
      obtain ⟨_, _, h, -, rfl⟩ := bind_ok.mp h
      obtain ⟨r, hr, -, hauth, -⟩ := cancelAutoRenew_ok h
      exact (hnobody.sender_of_stored hs hr hauth).elim

/-- Three calls write a delegate, and only for a stream that a signer is party to. -/
theorem streamCall_foreign_delegate {call : StreamCall} {made : List StreamId} (h : call.exec env w = .ok made w') :
    w'.book.delegates id = w.book.delegates id := by
  have hnotes := congrArg (fun n => n.delegates id) (streamCall_notes h)
  cases call with
  | delegate sender j operator =>
      obtain ⟨_, _, h, -, rfl⟩ := bind_ok.mp h
      obtain ⟨r, hr, -, hauth, -⟩ := delegate_ok h
      have hne : id ≠ j := by
        rintro rfl
        exact hnobody.sender_of_stored hs hr hauth
      exact hnotes.trans (Notes.setDelegate_of_ne _ _ hne)
  | revokeDelegate sender j =>
      obtain ⟨_, _, h, -, rfl⟩ := bind_ok.mp h
      obtain ⟨r, hr, -, hauth, -⟩ := revokeDelegate_ok h
      have hne : id ≠ j := by
        rintro rfl
        exact hnobody.sender_of_stored hs hr hauth
      exact hnotes.trans (Notes.setDelegate_of_ne _ _ hne)
  | archiveStream j caller =>
      obtain ⟨_, _, h, -, rfl⟩ := bind_ok.mp h
      obtain ⟨r, harchival, -⟩ := archiveStream_ok h
      have hne : id ≠ j := by
        rintro rfl
        rcases harchival.signed with hauth | hauth
        · exact hnobody.sender_of_stored hs harchival.stored hauth
        · exact hnobody.recipient_of_stored hs harchival.stored hauth
      exact hnotes.trans (Notes.setDelegate_of_ne _ _ hne)
  | _ => exact hnotes

end

theorem step_foreign (hmay : May c e) (hw : Accounts c.now c.world.book.streams)
    (hs : c.world.book.streams.lookup id = some s) (hmade : id ∉ c.made e) (he : e.Foreign c.world id s) :
    LeftAlone id c.world (c.step e).world := by
  rcases step_cases hmay with ⟨-, haside⟩ | ⟨env, call, _, _, rfl, hok, -, -, -, -⟩
  · exact ⟨haside.idle, congrArg (fun b => b.delegates id) haside.book⟩
  · exact ⟨streamCall_foreign_idle he hs (hw.mono hmay.1) hmade hok, streamCall_foreign_delegate he hs hok⟩

/-- Nobody else can touch a stream. In every run from a reached state in which neither its
sender nor its recipient nor its delegate signs a stream call, and no new record is made
under its ID, the record and the delegate stay and no token moves on the stream's account,
whatever the others do and however the contract is configured meanwhile. -/
theorem stream_inviolable (hreached : Reached host c) (hrun : SystemRun host c events c')
    (hs : c.world.book.streams.lookup id = some s) (hforeign : ∀ e ∈ events, e.Foreign c.world id s)
    (hnew : id ∉ outputs Chain.step Chain.made c events) : LeftAlone id c.world c'.world := by
  induction hrun with
  | nil => exact .refl _
  | @snoc es d e hr hm ih =>
      rw [hr.outputs_snoc, List.mem_append, not_or] at hnew
      have hbefore := ih (fun e he => hforeign e (List.mem_append_left [_] he)) hnew.1
      have hlast := hbefore.foreign (hforeign e (by simp))
      exact hbefore.trans
        (step_foreign hm (reached_accounts (hreached.run hr)) (hbefore.idle.record.trans hs) hnew.2 hlast)

namespace Sample

/-- Party 6 takes the contract over, pauses it, and tries to get at the stream of the others. -/
def intruding : List (Event site) :=
  [configure [6] 20 (.initializeContract (party 6) "1.0.0"), configure [6] 30 .emergencyPause,
    configure [6] 40 .emergencyResume, configure [6] 50 (.setProtocolFee 100),
    call [6] 60 (.batchCancelStream [streamId] (party 6)), call [6] 70 (.batchWithdraw [streamId] (party 6)),
    call [6] 80 (.withdraw streamId (party 3))]

end Sample

theorem sample_stream_inviolable :
    LeftAlone Sample.streamId (Sample.genesis.after [Sample.opening 0 0]).world
      ((Sample.genesis.after [Sample.opening 0 0]).after Sample.intruding).world := by
  refine stream_inviolable (s := createdStream Sample.site (Sample.terms 0 0) 10)
    (reached_after Sample.genesis_fresh (by decide)) (run_of_inOrder (by decide)) (by decide +kernel) ?_
    (by decide +kernel)
  have hnone : (Sample.genesis.after [Sample.opening 0 0]).world.book.delegates Sample.streamId = none := by
    decide +kernel
  have hforeign : ∀ time : U64, Foreign (Sample.signed [6] time) (Sample.genesis.after [Sample.opening 0 0]).world
      Sample.streamId (createdStream Sample.site (Sample.terms 0 0) 10) := by
    intro time a ha
    cases ha with
    | sender | recipient => simp [Sample.signed, createdStream, Sample.terms, Sample.party]
    | delegate hd => exact absurd (hnone.symm.trans hd) (Option.some_ne_none a).symm
  intro e he
  simp only [Sample.intruding, List.mem_cons, List.not_mem_nil, or_false] at he
  rcases he with rfl | rfl | rfl | rfl | rfl | rfl | rfl
  · trivial
  · trivial
  · trivial
  · trivial
  · exact hforeign 60
  · exact hforeign 70
  · exact hforeign 80

end SoroStream
