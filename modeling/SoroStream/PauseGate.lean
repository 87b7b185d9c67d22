import SoroStream.Lineage

namespace SoroStream

open Lib Lib.Rollback Lib.Rollback.Prog Lib.Runs Contract

variable {host : Host} {env : Env host} {w w' : World} {c : Chain} {id : StreamId} {e : StreamError}

theorem requireAuth_spares {a : Address} : Spares e (requireAuth a : Contract host Unit) :=
  spares_bind spares_read fun _ => spares_haltIf

theorem transfer_spares {t : Transfer} : Spares e (transfer t : Contract host Unit) :=
  spares_bind spares_read fun _ => spares_bind spares_haltIf fun _ => spares_update

theorem transferPositive_spares {t : Transfer} : Spares e (transferPositive t : Contract host Unit) :=
  spares_ite transfer_spares spares_pure

theorem divI128_spares {a b : Int} : Spares e (divI128 a b : Contract host Int) :=
  spares_bind spares_haltIf fun _ => spares_pure

theorem remI128_spares {a b : Int} : Spares e (remI128 a b : Contract host Int) :=
  spares_bind spares_haltIf fun _ => spares_pure

theorem pushIndex_spares {get : Book → SlotArray StreamId} {set : SlotArray StreamId → Book → Book} :
    Spares e (Storage.pushIndex get set id : Contract host Unit) :=
  spares_bind spares_read fun _ => spares_bind spares_haltIf fun _ => spares_update

theorem addStream_spares {s : Stream} : Spares e (addStream s : Contract host Unit) :=
  spares_bind spares_update fun _ => spares_bind pushIndex_spares fun _ =>
    spares_bind pushIndex_spares fun _ => pushIndex_spares

theorem closeStream_spares {s : Stream} : Spares e (closeStream id s : Contract host Unit) :=
  spares_bind spares_update fun _ => spares_bind spares_update fun _ => spares_update

theorem refundDust_spares {s : Stream} {dust : Int} : Spares e (refundDust s dust : Contract host Unit) :=
  transferPositive_spares

theorem payOutAndClose_spares {s : Stream} {amount : Int} :
    Spares e (payOutAndClose id s amount : Contract host Unit) :=
  spares_bind transferPositive_spares fun _ => spares_bind transferPositive_spares fun _ => closeStream_spares

abbrev Unheld {α : Type} (x : Contract host α) : Prop := Spares .contractPaused x

theorem feeAmount_unheld {recipient : Address} {claim : Int} :
    Unheld (feeAmount recipient claim : Contract host Int) :=
  spares_bind spares_read fun _ => spares_bind spares_read fun _ =>
    spares_ite (spares_bind (spares_okOr (by decide)) fun _ => spares_pure) spares_pure

theorem payClaim_unheld {hook : FeeHook host} (hhook : ∀ a token fee, Unheld (hook a token fee)) {s : Stream}
    {claim : Int} : Unheld (payClaim hook s claim) := by
  refine spares_bind feeAmount_unheld fun fee => spares_bind transferPositive_spares fun _ => ?_
  refine spares_ite (spares_bind spares_read fun treasury => ?_) spares_pure
  cases treasury with
  | none => exact spares_pure
  | some a => exact spares_bind transfer_spares fun _ => spares_bind (hhook a s.token fee) fun _ => spares_pure

theorem claimBlock_unheld {hook : FeeHook host} {after : Int → Contract host Unit}
    (hhook : ∀ a token fee, Unheld (hook a token fee)) (hafter : ∀ a, Unheld (after a)) {s : Stream}
    {claim : Int} : Unheld (claimBlock hook after s claim) := by
  refine spares_ite (spares_bind (spares_okOr (by decide)) fun _ => ?_) spares_pure
  refine spares_bind (spares_failIf (by decide)) fun _ => spares_bind (payClaim_unheld hhook) fun a => ?_
  exact spares_bind (hafter a) fun _ => spares_pure

theorem settleStream_unheld {looks : Bool} {s : Stream} {now : Nat} :
    Unheld (settleStream looks id s now : Contract host Unit) := by
  have hrenew : ∀ duration, Unheld (renewStream s duration : Contract host Unit) := by
    intro duration
    refine spares_bind requireAuth_spares fun _ => spares_bind transfer_spares fun _ => ?_
    exact spares_bind (spares_okOr (by decide)) fun _ => spares_update
  refine spares_ite (spares_bind (spares_bind spares_haltIf fun _ => spares_pure) fun duration => ?_) spares_update
  refine spares_ite (spares_bind spares_read fun _ => spares_ite ?_ (hrenew duration)) ?_
  · exact spares_bind refundDust_spares fun _ => spares_update
  · exact spares_bind refundDust_spares fun _ => closeStream_spares

theorem batchWithdrawItem_unheld {recipient : Address} :
    Unheld (batchWithdrawItem recipient id : Contract host Int) := by
  refine spares_bind spares_read fun _ => spares_bind (spares_okOr (by decide)) fun _ => ?_
  refine spares_bind (spares_failIf (by decide)) fun _ => spares_bind (spares_failIf (by decide)) fun _ => ?_
  refine spares_bind spares_read fun _ => spares_bind (spares_failIf (by decide)) fun _ => ?_
  refine spares_bind (spares_okOr (by decide)) fun _ => ?_
  refine spares_bind (claimBlock_unheld (fun _ _ _ => spares_tryCall) fun _ => spares_pure) fun _ => ?_
  exact spares_bind settleStream_unheld fun _ => spares_pure

theorem claimForTransfer_unheld {s : Stream} {now : Nat} :
    Unheld (claimForTransfer s now : Contract host Stream) := by
  refine spares_ite (spares_bind (spares_okOr (by decide)) fun _ => spares_ite ?_ spares_pure) spares_pure
  refine spares_bind (payClaim_unheld fun _ _ _ => spares_pure) fun _ => ?_
  exact spares_bind (spares_okOr (by decide)) fun _ => spares_pure

theorem collectCreationFee_unheld {sender : Address} :
    Unheld (collectCreationFee sender id : Contract host Unit) := by
  refine spares_bind spares_read fun _ => spares_ite ?_ spares_pure
  refine spares_bind spares_read fun _ => spares_bind (spares_okOr (by decide)) fun _ => ?_
  exact spares_bind spares_read fun _ => spares_bind (spares_okOr (by decide)) fun _ => transfer_spares

theorem batchIds_unheld {sender : Address} {now duration : Nat} {items : List BatchItem} {i : Nat}
    {ids : List StreamId} : Unheld (batchIds sender now duration items i ids : Contract host (List StreamId)) := by
  induction items generalizing i ids with
  | nil => exact spares_pure
  | cons item items ih =>
      refine spares_bind (spares_failIf (by decide)) fun _ => spares_bind divI128_spares fun _ => ?_
      refine spares_bind (spares_failIf (by decide)) fun _ => spares_bind spares_read fun _ => ?_
      exact spares_bind (spares_failIf (by decide)) fun _ => spares_bind (spares_failIf (by decide)) fun _ => ih

theorem batchCreateItem_unheld {a : BatchArgs} {now endTime : Nat} {entry : BatchItem × StreamId} :
    Unheld (batchCreateItem a now endTime entry : Contract host StreamId) :=
  spares_bind divI128_spares fun _ => spares_bind transfer_spares fun _ => spares_bind addStream_spares fun _ =>
    spares_pure

theorem requireSenderOrDelegate_unheld {s : Stream} {caller : Address} :
    Unheld (requireSenderOrDelegate id s caller : Contract host Unit) :=
  spares_bind spares_read fun _ => spares_failIf (by decide)

theorem loadForSender_unheld {sender : Address} : Unheld (loadForSender id sender : Contract host Stream) :=
  spares_bind requireAuth_spares fun _ => spares_bind spares_read fun _ =>
    spares_bind (spares_okOr (by decide)) fun _ => spares_bind (spares_failIf (by decide)) fun _ => spares_pure

theorem partialCancelStream_unheld {caller : Address} {amount : Int} :
    Unheld (partialCancelStream id caller amount : Contract host StreamId) := by
  have hflow : ∀ flowRate elapsed, Unheld (checkedFlowAmount flowRate elapsed : Contract host Int) :=
    fun _ _ => spares_okOr (by decide)
  refine spares_bind requireAuth_spares fun _ => spares_bind spares_read fun _ => ?_
  refine spares_bind (spares_okOr (by decide)) fun _ => spares_bind requireSenderOrDelegate_unheld fun _ => ?_
  refine spares_bind (spares_failIf (by decide)) fun _ => spares_bind (spares_failIf (by decide)) fun _ => ?_
  refine spares_bind spares_read fun _ => spares_bind (hflow _ _) fun _ => spares_bind (hflow _ _) fun _ => ?_
  refine spares_bind (spares_failIf (by decide)) fun _ => spares_bind divI128_spares fun _ => ?_
  refine spares_bind (spares_failIf (by decide)) fun _ => spares_bind (spares_okOr (by decide)) fun _ => ?_
  refine spares_bind transferPositive_spares fun _ => spares_bind transfer_spares fun _ => ?_
  exact spares_bind spares_update fun _ => spares_bind addStream_spares fun _ => spares_pure

theorem split_unheld {caller : Address} {amount : I128} :
    Unheld ((StreamCall.partialCancelStream id caller amount).exec : Contract host (List StreamId)) :=
  spares_bind partialCancelStream_unheld fun _ => spares_pure

theorem requireRunning_err :
    (∃ v, requireRunning env w = .err .contractPaused v) ↔ w.pause.pausedAt env.now = true := by
  simp only [requireRunning, bind_eq_err, isPausedOrAutoUnpause_run, failIf_err]
  constructor
  · rintro ⟨v, h | ⟨_, _, h, hpaused, -, rfl⟩⟩
    · simp at h
    · cases h
      exact hpaused
  · intro hpaused
    exact ⟨_, .inr ⟨_, _, rfl, hpaused, trivial, rfl⟩⟩

theorem gated_err {α : Type} {rest : Unit → Contract host α} (hrest : ∀ u, Unheld (rest u)) :
    (∃ v, (requireRunning >>= rest) env w = .err .contractPaused v) ↔ w.pause.pausedAt env.now = true :=
  (bind_err_of_spares hrest).trans requireRunning_err

def StreamCall.gated : StreamCall → Bool
  | .createStream _ | .batchCreateStream _ | .withdraw _ _ | .batchWithdraw _ _ | .topUp _ _ _ _
  | .pauseStream _ _ | .resumeStream _ _ | .transferRecipient _ _ _ | .recipientTerminate _ _ => true
  | _ => false

def StreamCall.signer : StreamCall → Address
  | .createStream args => args.sender
  | .batchCreateStream args => args.sender
  | .withdraw _ recipient | .batchWithdraw _ recipient | .recipientTerminate _ recipient
  | .transferRecipient _ recipient _ => recipient
  | .cancelStream _ caller | .partialCancelStream _ caller _ | .topUp _ caller _ _
  | .archiveStream _ caller => caller
  | .batchCancelStream _ sender | .pauseStream _ sender | .resumeStream _ sender | .delegate sender _ _
  | .revokeDelegate sender _ | .updateMetadata sender _ _ | .cancelAutoRenew sender _ => sender

theorem createStream_err {a : CreateArgs} (hauth : env.auths a.sender = true) :
    (∃ v, createStream a env w = .err .contractPaused v) ↔ w.pause.pausedAt env.now = true := by
  have hsigned : requireAuth a.sender env w = .ok () w := requireAuth_ok.mpr ⟨hauth, rfl⟩
  rw [createStream, bind_apply hsigned]
  refine gated_err fun _ => spares_bind spares_read fun _ => spares_bind (spares_failIf (by decide)) fun _ => ?_
  refine spares_bind (spares_failIf (by decide)) fun _ => spares_bind (spares_failIf (by decide)) fun _ => ?_
  refine spares_bind (spares_failIf (by decide)) fun _ => spares_bind spares_read fun _ => ?_
  refine spares_bind spares_read fun _ => spares_bind (spares_failIf (by decide)) fun _ => ?_
  refine spares_bind spares_read fun _ => spares_bind (spares_failIf (by decide)) fun _ => ?_
  refine spares_bind divI128_spares fun _ => spares_bind (spares_failIf (by decide)) fun _ => ?_
  refine spares_bind spares_read fun _ => spares_bind spares_read fun _ => ?_
  refine spares_bind (spares_failIf (by decide)) fun _ => spares_bind spares_update fun _ => ?_
  refine spares_bind spares_read fun _ => spares_bind (spares_okOr (by decide)) fun _ => ?_
  refine spares_bind (spares_failIf (by decide)) fun _ => spares_bind (spares_okOr (by decide)) fun _ => ?_
  refine spares_bind spares_read fun _ => spares_bind (spares_failIf (by decide)) fun _ => ?_
  refine spares_bind collectCreationFee_unheld fun _ => spares_bind transfer_spares fun _ => ?_
  exact spares_bind addStream_spares fun _ => spares_pure

theorem batchCreateStream_err {a : BatchArgs} :
    (∃ v, batchCreateStream a env w = .err .contractPaused v) ↔ w.pause.pausedAt env.now = true := by
  refine gated_err fun _ => spares_bind requireAuth_spares fun _ => spares_bind spares_read fun _ => ?_
  refine spares_bind (spares_failIf (by decide)) fun _ => ?_
  refine spares_bind (spares_bind spares_read fun _ => spares_bind spares_okOrHalt fun _ => spares_update) fun _ => ?_
  refine spares_bind (spares_failIf (by decide)) fun _ => spares_bind spares_read fun _ => ?_
  refine spares_bind (spares_okOr (by decide)) fun _ => spares_bind (spares_failIf (by decide)) fun _ => ?_
  refine spares_bind spares_read fun _ => spares_bind spares_read fun _ => spares_bind spares_okOrHalt fun _ => ?_
  refine spares_bind (spares_failIf (by decide)) fun _ => spares_bind batchIds_unheld fun _ => ?_
  exact spares_each (fun _ => batchCreateItem_unheld) _

theorem withdraw_err {recipient : Address} :
    (∃ v, withdraw id recipient env w = .err .contractPaused v) ↔ w.pause.pausedAt env.now = true := by
  refine gated_err fun _ => spares_bind requireAuth_spares fun _ => spares_bind spares_read fun _ => ?_
  refine spares_bind (spares_okOr (by decide)) fun _ => spares_bind (spares_failIf (by decide)) fun _ => ?_
  refine spares_bind (spares_failIf (by decide)) fun _ => spares_bind spares_read fun _ => ?_
  refine spares_bind (spares_failIf (by decide)) fun _ => spares_bind spares_read fun _ => ?_
  refine spares_bind (spares_failIf (by decide)) fun _ => spares_bind (spares_okOr (by decide)) fun _ => ?_
  refine spares_bind (claimBlock_unheld (fun _ _ _ => spares_pure) fun _ => spares_tryCall) fun _ => ?_
  exact settleStream_unheld

theorem batchWithdraw_err {ids : List StreamId} {recipient : Address} :
    (∃ v, batchWithdraw ids recipient env w = .err .contractPaused v) ↔ w.pause.pausedAt env.now = true :=
  gated_err fun _ => spares_bind requireAuth_spares fun _ => spares_each (fun _ => batchWithdrawItem_unheld) _

theorem recipientTerminate_err {recipient : Address} :
    (∃ v, recipientTerminate id recipient env w = .err .contractPaused v) ↔ w.pause.pausedAt env.now = true := by
  refine gated_err fun _ => spares_bind requireAuth_spares fun _ => spares_bind spares_read fun _ => ?_
  refine spares_bind (spares_okOr (by decide)) fun _ => spares_bind (spares_failIf (by decide)) fun _ => ?_
  refine spares_bind (spares_failIf (by decide)) fun _ => spares_bind (spares_failIf (by decide)) fun _ => ?_
  exact spares_bind spares_read fun _ => spares_bind (spares_okOr (by decide)) fun _ => payOutAndClose_spares

theorem transferRecipient_err {current recipient : Address} :
    (∃ v, transferRecipient id current recipient env w = .err .contractPaused v) ↔
      w.pause.pausedAt env.now = true := by
  refine gated_err fun _ => spares_bind requireAuth_spares fun _ => spares_bind spares_read fun _ => ?_
  refine spares_bind (spares_okOr (by decide)) fun _ => spares_bind (spares_failIf (by decide)) fun _ => ?_
  refine spares_bind (spares_failIf (by decide)) fun _ => spares_bind spares_read fun _ => ?_
  refine spares_bind claimForTransfer_unheld fun _ => spares_bind spares_update fun _ => ?_
  exact spares_bind spares_update fun _ => pushIndex_spares

theorem topUp_err {caller token : Address} {amount : Int} :
    (∃ v, topUp id caller token amount env w = .err .contractPaused v) ↔ w.pause.pausedAt env.now = true := by
  refine gated_err fun _ => spares_bind requireAuth_spares fun _ => spares_bind spares_read fun _ => ?_
  refine spares_bind (spares_okOr (by decide)) fun _ => spares_bind requireSenderOrDelegate_unheld fun _ => ?_
  refine spares_bind (spares_failIf (by decide)) fun _ => spares_bind (spares_failIf (by decide)) fun _ => ?_
  refine spares_bind (spares_failIf (by decide)) fun _ => spares_bind remI128_spares fun _ => ?_
  refine spares_bind (spares_failIf (by decide)) fun _ => spares_bind transfer_spares fun _ => ?_
  refine spares_bind divI128_spares fun _ => spares_bind (spares_failIf (by decide)) fun _ => ?_
  exact spares_bind (spares_okOr (by decide)) fun _ => spares_bind (spares_okOr (by decide)) fun _ => spares_update

theorem pauseStream_err {sender : Address} :
    (∃ v, pauseStream id sender env w = .err .contractPaused v) ↔ w.pause.pausedAt env.now = true :=
  gated_err fun _ => spares_bind loadForSender_unheld fun _ => spares_bind (spares_failIf (by decide)) fun _ =>
    spares_bind spares_read fun _ => spares_update

theorem resumeStream_err {sender : Address} :
    (∃ v, resumeStream id sender env w = .err .contractPaused v) ↔ w.pause.pausedAt env.now = true :=
  gated_err fun _ => spares_bind loadForSender_unheld fun _ => spares_bind (spares_failIf (by decide)) fun _ =>
    spares_bind spares_read fun _ => spares_update

/-- A gated call of its signer is refused for the pause exactly when the contract is
paused. -/
theorem gated_iff {call : StreamCall} (hgated : call.gated = true) (hauth : env.auths call.signer = true) :
    (∃ v, call.exec env w = .err .contractPaused v) ↔ w.pause.pausedAt env.now = true := by
  cases call with
  | createStream a => exact (bind_err_of_spares fun _ => spares_pure).trans (createStream_err hauth)
  | batchCreateStream a => exact batchCreateStream_err
  | withdraw id recipient => exact (bind_err_of_spares fun _ => spares_pure).trans withdraw_err
  | batchWithdraw ids recipient => exact (bind_err_of_spares fun _ => spares_pure).trans batchWithdraw_err
  | recipientTerminate id recipient => exact (bind_err_of_spares fun _ => spares_pure).trans recipientTerminate_err
  | transferRecipient id current recipient =>
      exact (bind_err_of_spares fun _ => spares_pure).trans transferRecipient_err
  | topUp id caller token amount => exact (bind_err_of_spares fun _ => spares_pure).trans topUp_err
  | pauseStream id sender => exact (bind_err_of_spares fun _ => spares_pure).trans pauseStream_err
  | resumeStream id sender => exact (bind_err_of_spares fun _ => spares_pure).trans resumeStream_err
  | cancelStream id caller => exact Bool.noConfusion hgated
  | batchCancelStream ids sender => exact Bool.noConfusion hgated
  | partialCancelStream id caller amount => exact Bool.noConfusion hgated
  | archiveStream id caller => exact Bool.noConfusion hgated
  | delegate sender id operator => exact Bool.noConfusion hgated
  | revokeDelegate sender id => exact Bool.noConfusion hgated
  | updateMetadata sender id metadata => exact Bool.noConfusion hgated
  | cancelAutoRenew sender id => exact Bool.noConfusion hgated

/-- A gated call that goes through finds the contract running. -/
theorem gated_ok {call : StreamCall} {made : List StreamId} (hgated : call.gated = true)
    (h : call.exec env w = .ok made w') : w.pause.pausedAt env.now = false := by
  cases call with
  | createStream a =>
      obtain ⟨_, _, h, -, -⟩ := bind_ok.mp h
      exact (createStream_ok h).1
  | batchCreateStream a => exact (batchCreateStream_ok h).1
  | withdraw id recipient =>
      obtain ⟨_, _, h, -, -⟩ := bind_ok.mp h
      exact (withdraw_ok h).1
  | batchWithdraw ids recipient =>
      obtain ⟨_, _, h, -, -⟩ := bind_ok.mp h
      exact (batchWithdraw_ok h).1
  | recipientTerminate id recipient =>
      obtain ⟨_, _, h, -, -⟩ := bind_ok.mp h
      exact (recipientTerminate_ok.mp h).1
  | transferRecipient id current recipient =>
      obtain ⟨_, _, h, -, -⟩ := bind_ok.mp h
      exact (transferRecipient_ok h).1
  | topUp id caller token amount =>
      obtain ⟨_, _, h, -, -⟩ := bind_ok.mp h
      exact (topUp_ok h).1
  | pauseStream id sender =>
      obtain ⟨_, _, h, -, -⟩ := bind_ok.mp h
      exact (pauseStream_ok h).1
  | resumeStream id sender =>
      obtain ⟨_, _, h, -, -⟩ := bind_ok.mp h
      exact (resumeStream_ok h).1
  | _ => exact Bool.noConfusion hgated

/-- The calls that a pause should stop: those that open streams or pay recipients. -/
def StreamCall.commits : StreamCall → Bool
  | .createStream _ | .batchCreateStream _ | .withdraw _ _ | .batchWithdraw _ _ | .transferRecipient _ _ _
  | .recipientTerminate _ _ | .partialCancelStream _ _ _ => true
  | _ => false

/-- What the pause promises of one call: those it should stop are refused for it and
change nothing, and no call stores a new record. -/
structure PauseHolds (env : Env host) (w : World) (call : Call) : Prop where
  refused : ∀ k, call = .stream k → k.commits = true → env.auths k.signer = true →
    ∃ v, k.exec env w = .err .contractPaused v
  unchanged : ∀ k, call = .stream k → k.commits = true → (call.exec env w).commit w = w
  nothingNew : ∀ id, ((call.exec env w).commit w).book.streams.lookup id ≠ none → w.book.streams.lookup id ≠ none

theorem StreamCall.commits_cases {call : StreamCall} (h : call.commits = true) :
    call.gated = true ∨ ∃ id caller amount, call = .partialCancelStream id caller amount := by
  cases call with
  | partialCancelStream id caller amount => exact .inr ⟨id, caller, amount, rfl⟩
  | createStream | batchCreateStream | withdraw | batchWithdraw | transferRecipient | recipientTerminate =>
      exact .inl rfl
  | _ => exact Bool.noConfusion h

theorem StreamCall.made_nil {call : StreamCall} (hother : call.commits = false) {made : List StreamId}
    (h : call.exec env w = .ok made w') : made = [] := by
  cases call with
  | createStream | batchCreateStream | withdraw | batchWithdraw | transferRecipient | recipientTerminate
  | partialCancelStream => exact Bool.noConfusion hother
  | _ =>
      obtain ⟨_, _, -, h⟩ := bind_ok.mp h
      exact (pure_ok.mp h).1.symm

/-- A partial cancellation by its signer is the one call that the pause misses. -/
theorem pause_holds_iff (env : Env host) (hreached : Reached host c) (hnow : c.now ≤ env.now)
    (hpaused : c.world.pause.pausedAt env.now = true) (call : Call) :
    PauseHolds env c.world call ↔
      ¬∃ id caller amount, call = .stream (.partialCancelStream id caller amount) ∧ env.auths caller = true := by
  have hmay : May c (.call env call) := ⟨hnow, trivial⟩
  have hgate : ∀ k : StreamCall, k.gated = true → ∀ {made v}, k.exec env c.world ≠ .ok made v := by
    intro k hgated made v hok
    exact Bool.noConfusion (hpaused.symm.trans (gated_ok hgated hok))
  constructor
  · rintro hholds ⟨id, caller, amount, rfl, hauth⟩
    obtain ⟨v, hv⟩ := hholds.refused _ rfl rfl hauth
    exact split_unheld env c.world v hv
  · intro hother
    -- a call that should be stopped and is not refused for the pause is not signed
    have hfails : ∀ k, call = .stream k → k.commits = true → ∀ {made v}, k.exec env c.world ≠ .ok made v := by
      rintro k rfl hk made v hok
      rcases k.commits_cases hk with hgated | ⟨id, caller, amount, rfl⟩
      · exact hgate k hgated hok
      · obtain ⟨_, _, h, -, -⟩ := bind_ok.mp hok
        exact hother ⟨id, caller, amount, rfl, (partialCancelStream_ok h).1⟩
    have hunchanged : ∀ k, call = .stream k → k.commits = true →
        (call.exec env c.world).commit c.world = c.world := by
      rintro k rfl hk
      cases hx : k.exec env c.world with
      | ok made v => exact absurd hx (hfails k rfl hk)
      | err e v => simp [Call.exec, hx]
      | trap => simp [Call.exec, hx]
    refine ⟨?_, hunchanged, ?_⟩
    · rintro k rfl hk hauth
      rcases k.commits_cases hk with hgated | ⟨id, caller, amount, rfl⟩
      · exact (gated_iff hgated hauth).mpr hpaused
      · exact absurd ⟨id, caller, amount, rfl, hauth⟩ hother
    · intro id hid
      have hmade : c.made (.call env call) = [] := by
        rcases step_cases hmay with ⟨hnone, -⟩ | ⟨env, k, _, _, heq, hok, -, -, -, -⟩
        · exact hnone
        · cases heq
          by_cases hk : k.commits = true
          · exact absurd hok (hfails k rfl hk)
          · exact k.made_nil (by simpa using hk) hok
      obtain ⟨s', hs'⟩ := Option.ne_none_iff_exists'.mp hid
      have hdescends := step_descends hmay (reached_accounts hreached)
      obtain ⟨s, hs, -⟩ := hdescends id (hmade ▸ List.not_mem_nil) s' hs'
      exact hs ▸ Option.some_ne_none s

namespace Sample

def emergency : List (Event site) :=
  [configure [4] 1 (.initializeContract (party 4) "1.0.0"), opening 0 0, configure [4] 15 .emergencyPause]

def splitCall : StreamCall := .partialCancelStream streamId (party 2) ⟨40000, by decide⟩

end Sample

theorem sample_pause_holds :
    PauseHolds (Sample.signed [3] 20) (Sample.genesis.after Sample.emergency).world
      (.stream (.withdraw Sample.streamId (Sample.party 3))) :=
  (pause_holds_iff (Sample.signed [3] 20) (reached_after Sample.genesis_fresh (by decide)) (by decide)
    (by decide +kernel) _).mpr (by simp)

theorem split_ignores_pause :
    Reached Sample.site (Sample.genesis.after Sample.emergency) ∧
    (Sample.genesis.after Sample.emergency).world.pause.pausedAt 20 = true ∧
    (Sample.splitCall.exec (Sample.signed [2] 20) (Sample.genesis.after Sample.emergency).world).value?.isSome = true ∧
    (Sample.genesis.after Sample.emergency).world.balances (Sample.party 9) (Sample.party 3) = 1000000 ∧
    (((Sample.splitCall.exec (Sample.signed [2] 20) (Sample.genesis.after Sample.emergency).world).commit
      (Sample.genesis.after Sample.emergency).world).balances (Sample.party 9) (Sample.party 3)) = 1000250 ∧
    ¬PauseHolds (Sample.signed [2] 20) (Sample.genesis.after Sample.emergency).world (.stream Sample.splitCall) := by
  refine ⟨reached_after Sample.genesis_fresh (by decide), by decide +kernel, by decide +kernel, by decide +kernel,
    by decide +kernel, ?_⟩
  intro h
  obtain ⟨v, hv⟩ := h.refused _ rfl rfl (by decide)
  exact split_unheld _ _ v hv

end SoroStream
