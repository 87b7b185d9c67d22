import SoroStream.Emitting.Admin

namespace SoroStream

open Lib Lib.Rollback Lib.Rollback.Prog

variable {host : Host}

namespace Emitting

instance collectCreationFee_erases {sender : Address} {id : StreamId} :
    Erases (collectCreationFee sender id : Traced host Unit) (Contract.collectCreationFee sender id) := by
  refine erases_bind fun fee => erases_ite ?_ erases_pure
  repeat refine erases_bind fun _ => ?_
  exact erases_bind_remark

instance createStream_erases {a : Contract.CreateArgs} :
    Erases (createStream a : Traced host StreamId) (Contract.createStream a) := by
  unfold createStream Contract.createStream
  repeat refine erases_bind fun _ => ?_
  exact erases_remark erases_pure

instance batchCreateItem_erases {a : Contract.BatchArgs} {now endTime : Nat} {entry : Contract.BatchItem × StreamId} :
    Erases (batchCreateItem a now endTime entry : Traced host StreamId)
      (Contract.batchCreateItem a now endTime entry) := by
  unfold batchCreateItem Contract.batchCreateItem
  repeat refine erases_bind fun _ => ?_
  exact erases_remark erases_pure

instance batchCreateStream_erases {a : Contract.BatchArgs} :
    Erases (batchCreateStream a : Traced host (List StreamId)) (Contract.batchCreateStream a) := by
  unfold batchCreateStream Contract.batchCreateStream
  repeat refine erases_bind fun _ => ?_
  exact erases_each

section

variable {hook : FeeHook host} {plain : Contract.FeeHook host} [∀ a t f, Erases (hook a t f) (plain a t f)]

instance payClaim_erases {s : Stream} {claim : Int} :
    Erases (payClaim hook s claim) (Contract.payClaim plain s claim) := by
  refine erases_bind fun fee => erases_bind fun _ => erases_ite (erases_bind fun treasury => ?_) erases_pure
  cases treasury with
  | none => exact erases_pure
  | some treasury => exact erases_bind fun _ => erases_bind fun _ => erases_pure

instance claimBlock_erases {after : Int → Contract host Unit} {s : Stream} {claim : Int} :
    Erases (claimBlock hook after s claim) (Contract.claimBlock plain after s claim) := by
  refine erases_ite ?_ erases_pure
  repeat refine erases_bind fun _ => ?_
  exact erases_pure

end

instance feeHook_erases {id : StreamId} {a t : Address} {f : Int} :
    Erases (feeHook id a t f : Traced host Unit) (Contract.noHook a t f) := erases_publish

instance depositHook_erases {a t : Address} {f : Int} :
    Erases (depositHook a t f : Traced host Unit) (Contract.depositHook a t f) := erases_quietly

instance finishStream_erases {id : StreamId} {s : Stream} {dust : Int} :
    Erases (finishStream id s dust : Traced host Unit) (Contract.finishStream id s dust) :=
  erases_bind fun _ => erases_remark erases_quietly

instance settleStream_erases {looks : Bool} {id : StreamId} {s : Stream} {now : Nat} :
    Erases (settleStream looks id s now : Traced host Unit) (Contract.settleStream looks id s now) := by
  refine erases_ite (erases_bind fun duration => erases_ite ?_ finishStream_erases) erases_quietly
  refine erases_bind fun balance => erases_ite ?_ erases_quietly
  exact erases_remark (erases_bind fun _ => erases_remark erases_quietly)

instance withdraw_erases {id : StreamId} {recipient : Address} :
    Erases (withdraw id recipient : Traced host Unit) (Contract.withdraw id recipient) := by
  unfold withdraw Contract.withdraw
  repeat refine erases_bind fun _ => ?_
  exact erases_bind_remark

instance batchWithdrawItem_erases {id : StreamId} {recipient : Address} :
    Erases (batchWithdrawItem recipient id : Traced host Int) (Contract.batchWithdrawItem recipient id) := by
  unfold batchWithdrawItem Contract.batchWithdrawItem
  repeat refine erases_bind fun _ => ?_
  exact erases_remark erases_pure

instance batchWithdraw_erases {ids : List StreamId} {recipient : Address} :
    Erases (batchWithdraw ids recipient : Traced host (List Int)) (Contract.batchWithdraw ids recipient) :=
  erases_bind fun _ => erases_bind fun _ => erases_each

instance claimForTransfer_erases {id : StreamId} {s : Stream} {now : Nat} :
    Erases (claimForTransfer id s now : Traced host Stream) (Contract.claimForTransfer s now) := by
  refine erases_ite (erases_bind fun claim => erases_ite ?_ erases_pure) erases_pure
  exact erases_bind fun _ => erases_bind fun total => erases_remark erases_pure

instance transferRecipient_erases {id : StreamId} {current new : Address} :
    Erases (transferRecipient id current new : Traced host Unit) (Contract.transferRecipient id current new) := by
  unfold transferRecipient Contract.transferRecipient
  repeat refine erases_bind fun _ => ?_
  exact erases_bind_remark

instance cancelStream_erases {id : StreamId} {caller : Address} :
    Erases (cancelStream id caller : Traced host Unit) (Contract.cancelStream id caller) := by
  unfold cancelStream Contract.cancelStream
  repeat refine erases_bind fun _ => ?_
  exact erases_bind_remark

instance recipientTerminate_erases {id : StreamId} {recipient : Address} :
    Erases (recipientTerminate id recipient : Traced host Unit) (Contract.recipientTerminate id recipient) := by
  unfold recipientTerminate Contract.recipientTerminate
  repeat refine erases_bind fun _ => ?_
  exact erases_bind_remark

instance batchCancelItem_erases {id : StreamId} {sender : Address} :
    Erases (batchCancelItem sender id : Traced host Unit) (Contract.batchCancelItem sender id) := by
  unfold batchCancelItem Contract.batchCancelItem
  repeat refine erases_bind fun _ => ?_
  exact erases_bind_remark

instance batchCancelStream_erases {ids : List StreamId} {sender : Address} :
    Erases (batchCancelStream ids sender : Traced host _) (Contract.batchCancelStream ids sender) :=
  erases_bind fun _ => erases_bind fun _ => erases_each

instance partialCancelStream_erases {id : StreamId} {caller : Address} {amount : Int} :
    Erases (partialCancelStream id caller amount : Traced host StreamId)
      (Contract.partialCancelStream id caller amount) := by
  unfold partialCancelStream Contract.partialCancelStream
  repeat refine erases_bind fun _ => ?_
  exact erases_remark (erases_bind fun _ => erases_remark erases_pure)

instance archiveStream_erases {id : StreamId} {caller : Address} :
    Erases (archiveStream id caller : Traced host Unit) (Contract.archiveStream id caller) := by
  unfold archiveStream Contract.archiveStream
  repeat refine erases_bind fun _ => ?_
  exact erases_bind_remark

instance topUp_erases {id : StreamId} {caller token : Address} {amount : Int} :
    Erases (topUp id caller token amount : Traced host Unit) (Contract.topUp id caller token amount) := by
  unfold topUp Contract.topUp
  repeat refine erases_bind fun _ => ?_
  exact erases_bind_remark

instance updateMetadata_erases {sender : Address} {id : StreamId} {metadata : List UInt8} :
    Erases (updateMetadata sender id metadata : Traced host Unit) (Contract.updateMetadata sender id metadata) :=
  erases_bind fun _ => erases_bind fun _ => erases_bind_remark

instance cancelAutoRenew_erases {sender : Address} {id : StreamId} :
    Erases (cancelAutoRenew sender id : Traced host Unit) (Contract.cancelAutoRenew sender id) :=
  erases_bind fun _ => erases_bind_remark

instance pauseStream_erases {id : StreamId} {sender : Address} :
    Erases (pauseStream id sender : Traced host Unit) (Contract.pauseStream id sender) := by
  unfold pauseStream Contract.pauseStream
  repeat refine erases_bind fun _ => ?_
  exact erases_bind_remark

instance resumeStream_erases {id : StreamId} {sender : Address} :
    Erases (resumeStream id sender : Traced host Unit) (Contract.resumeStream id sender) := by
  unfold resumeStream Contract.resumeStream
  repeat refine erases_bind fun _ => ?_
  exact erases_bind_remark

instance initializeContract_erases {admin : Address} {version : String} :
    Erases (initializeContract admin version : Traced host Unit) (Contract.initializeContract admin version) :=
  erases_bind fun _ => erases_bind fun _ => erases_bind fun _ => erases_bind_remark

instance recordAction_erases {first : Address → Nat → Traced host Unit} [∀ a t, Erases (first a t) (pure ())]
    {instruction params : String} :
    Erases (recordAction first instruction params) (Contract.recordAction instruction params) := by
  unfold recordAction Contract.recordAction
  repeat refine erases_bind fun _ => ?_
  exact erases_remark erases_bind_remark

instance emergencyPause_erases : Erases (emergencyPause : Traced host Unit) Contract.emergencyPause := by
  refine erases_bind fun _ => erases_bind fun _ => erases_bind fun now => erases_bind fun _ => ?_
  exact recordAction_erases

instance emergencyResume_erases : Erases (emergencyResume : Traced host Unit) Contract.emergencyResume :=
  erases_bind fun _ => erases_bind fun _ => erases_bind fun _ => recordAction_erases

instance pause_erases {guardian : Address} : Erases (pause guardian : Traced host Unit) (Contract.pause guardian) := by
  unfold pause Contract.pause
  repeat refine erases_bind fun _ => ?_
  exact erases_bind_remark

instance unpause_erases {governance : Address} :
    Erases (unpause governance : Traced host Unit) (Contract.unpause governance) := by
  unfold unpause Contract.unpause
  repeat refine erases_bind fun _ => ?_
  have hlast :
      Erases (quietly timestamp >>= fun ts => publish (.unpaused governance ts) : Traced host Unit) (pure ()) :=
    ⟨fun _ _ => rfl⟩
  exact erases_bind_remark

instance migrate_erases {fromVersion toVersion : String} :
    Erases (migrate fromVersion toVersion : Traced host Unit) (Contract.migrate fromVersion toVersion) := by
  refine erases_bind fun _ => erases_bind fun applied => erases_bind fun _ => ?_
  exact erases_bind fun _ => erases_bind fun _ => recordAction_erases

instance proposeFeeChange_erases {admin : Address} {feeBps : Nat} :
    Erases (proposeFeeChange admin feeBps : Traced host Unit) (Contract.proposeFeeChange admin feeBps) := by
  unfold proposeFeeChange Contract.proposeFeeChange
  repeat refine erases_bind fun _ => ?_
  exact erases_bind_remark

instance executeFeeChange_erases : Erases (executeFeeChange : Traced host Unit) Contract.executeFeeChange := by
  refine erases_bind fun proposal => erases_bind fun fee => ?_
  repeat refine erases_bind fun _ => ?_
  exact erases_bind_remark

end Emitting

instance streamCall_erases {c : StreamCall} : Erases (c.emit : Traced host (List StreamId)) c.exec := by
  cases c with
  | batchCreateStream a => exact Emitting.batchCreateStream_erases
  | delegate | revokeDelegate => exact erases_quietly
  | _ => exact erases_bind fun _ => erases_pure

instance configCall_erases {c : ConfigCall} : Erases (c.emit : Traced host Unit) c.exec := by
  cases c with
  | initializeContract | emergencyPause | emergencyResume | pause | unpause | migrate | proposeFeeChange
  | executeFeeChange => unfold ConfigCall.emit ConfigCall.exec; infer_instance
  | setTreasuryAddress treasury =>
      exact erases_quietly (y := Contract.setTreasuryAddress treasury)
  | _ => exact erases_quietly

instance call_erases {c : Call} : Erases (c.emit : Traced host (List StreamId)) c.exec := by
  cases c with
  | stream c => exact streamCall_erases
  | config c => exact erases_bind fun _ => erases_pure
  | view v => exact erases_quietly

end SoroStream
