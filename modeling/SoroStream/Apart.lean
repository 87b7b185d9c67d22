import SoroStream.Accounting

namespace SoroStream

open Lib Lib.Rollback Lib.Rollback.Prog Contract

variable {host : Host} {env : Env host} {w w' w'' : World} {id j : StreamId} {r s : Stream} {u : Unit}
  {payees : Address → Prop} {claim amount : Int} {ids : List StreamId} {recipient : Address}

/-- A step that is about other streams: the record of `id` stays, and the contract
pays nothing on its account. -/
structure Apart (host : Host) (id : StreamId) (w w' : World) : Prop where
  record : w'.book.streams.lookup id = w.book.streams.lookup id
  log : ∃ ts, w'.log = w.log ++ ts ∧ ∀ t ∈ ts, t.cause.stream? = some id → t.payer ≠ host.contract

/-- A step that is about other streams altogether: the record of `id` stays, and no
token moves on its account. -/
structure Idle (id : StreamId) (w w' : World) : Prop where
  record : w'.book.streams.lookup id = w.book.streams.lookup id
  log : ∃ ts, w'.log = w.log ++ ts ∧ ∀ t ∈ ts, t.cause.stream? ≠ some id

namespace Idle

theorem refl (w : World) : Idle id w w := ⟨rfl, [], by simp, by simp⟩

theorem trans (h : Idle id w w') (h' : Idle id w' w'') : Idle id w w'' := by
  obtain ⟨ts, hts, hidle⟩ := h.log
  obtain ⟨us, hus, hidle'⟩ := h'.log
  refine ⟨h'.record.trans h.record, ts ++ us, by rw [hus, hts, List.append_assoc], ?_⟩
  intro t ht
  rcases List.mem_append.mp ht with ht | ht
  · exact hidle t ht
  · exact hidle' t ht

theorem apart (h : Idle id w w') : Apart host id w w' := by
  obtain ⟨ts, hts, hidle⟩ := h.log
  exact ⟨h.record, ts, hts, fun t ht hid => absurd hid (hidle t ht)⟩

theorem of_cause {ts : List Transfer} (hrecord : w'.book.streams.lookup id = w.book.streams.lookup id)
    (hlog : w'.log = w.log ++ ts) (hcause : ∀ t ∈ ts, t.cause.stream? = some j) (hne : id ≠ j) : Idle id w w' := by
  refine ⟨hrecord, ts, hlog, ?_⟩
  intro t ht hid
  exact hne (Option.some.inj (hid.symm.trans (hcause t ht)))

theorem of_awake {now : Nat} (h : Idle id (w.awake now) w') : Idle id w w' := ⟨h.record, h.log⟩

end Idle

theorem claimedTransfers_cause : ∀ t ∈ claimedTransfers host w s claim, t.cause.stream? = some s.id := by
  intro t ht
  obtain ⟨-, rfl | ⟨a, rfl⟩⟩ := mem_claimedTransfers ht
  · rfl
  · rfl

theorem Settlement.cause {now : Nat} {looks : Bool} {out : Option Stream} {us : List Transfer}
    (h : Settlement env w now looks s out us) : ∀ t ∈ us, t.cause.stream? = some s.id := by
  intro t ht
  obtain ⟨-, rfl | ⟨rfl, -⟩⟩ := h.mem_transfers ht
  · rfl
  · rfl

theorem closingTransfers_cause : ∀ t ∈ closingTransfers host s amount, t.cause.stream? = some s.id := by
  intro t ht
  rcases List.mem_append.mp ht with ht | ht
  · rw [mem_positive ht]
    rfl
  · rw [mem_positive ht]
    rfl

theorem splitTransfers_cause {earned cancelAmount : Int} :
    ∀ t ∈ splitTransfers host s earned cancelAmount, t.cause.stream? = some s.id := by
  intro t ht
  rcases List.mem_append.mp ht with ht | ht
  · rw [mem_positive ht]
    rfl
  · rw [List.mem_singleton.mp ht]
    rfl

theorem withdrawal_log {single : Bool} {w₁ : World} {out : Option Stream} {us : List Transfer}
    (h : Withdrawal env w single j r claim w₁ out us) :
    (Withdrawal.result w₁ j r claim env.now out us).log = w.log ++ (claimedTransfers host w r claim ++ us) := by
  rw [Withdrawal.result, withBook_log, pay_log, h.paid.log, List.append_assoc]

theorem withdrawal_idle {single : Bool} {w₁ : World} {out : Option Stream} {us : List Transfer}
    (h : Withdrawal env w single j r claim w₁ out us) (hid : r.id = j) (hne : id ≠ j) :
    Idle id w (Withdrawal.result w₁ j r claim env.now out us) := by
  refine .of_cause ?_ (withdrawal_log h) ?_ hne
  · exact h.lookup_ne hid hne
  · intro t ht
    rw [← hid]
    rcases List.mem_append.mp ht with ht | ht
    · exact claimedTransfers_cause t ht
    · exact h.settled.cause t ht

theorem handedOver_idle {w₁ : World} {recipient : Address} {tau : Nat}
    (h : HandOver env w j r claim w₁ recipient) (hid : r.id = j) (hne : id ≠ j) :
    Idle id w (w₁.withBook (HandOver.book w₁.book j r claim tau recipient)) := by
  refine .of_cause ?_ (by rw [withBook_log, h.paid.log]) ?_ hne
  · have hne' : id ≠ (r.advance claim tau).id := by rwa [advance_id, hid]
    have hlookup : (HandOver.book w₁.book j r claim tau recipient).streams.lookup id = w₁.book.streams.lookup id :=
      Finmap.lookup_insert_of_ne _ hne'
    rw [withBook_book, hlookup, h.paid.book]
  · intro t ht
    rw [← hid]
    exact claimedTransfers_cause t ht

theorem closed_idle (hid : r.id = j) (hne : id ≠ j) : Idle id w (closed host w j r amount) := by
  refine .of_cause (Finmap.lookup_erase_ne hne) rfl ?_ hne
  intro t ht
  rw [← hid]
  exact closingTransfers_cause t ht

theorem opened_idle {fees : List Transfer} (hfees : ∀ t ∈ fees, t.payer = r.sender ∧ 0 ≤ t.amount ∧
    t.cause = .creationFee r.id) (hne : id ≠ r.id) :
    Idle id w ((w.pay (fees ++ [lockTransfer host r])).withBook (w.book.add r)) := by
  refine .of_cause (Finmap.lookup_insert_of_ne _ hne) rfl ?_ hne
  intro t ht
  rcases List.mem_append.mp ht with ht | ht
  · rw [(hfees t ht).2.2]
    rfl
  · rw [List.mem_singleton.mp ht]
    rfl

/-- Nothing of the stream's goes from the contract to any of `payees`, and no more
of it counts as withdrawn. -/
structure Withheld (host : Host) (payees : Address → Prop) (id : StreamId) (s : Stream) (w w' : World) :
    Prop where
  log : ∃ ts, w'.log = w.log ++ ts ∧
    ∀ t ∈ ts, t.cause.stream? = some id → t.payer = host.contract → ¬payees t.payee
  record : ∀ s', w'.book.streams.lookup id = some s' → s'.totalWithdrawn ≤ s.totalWithdrawn

theorem Apart.withheld (h : Apart host id w w') (hs : w.book.streams.lookup id = some s) :
    Withheld host payees id s w w' := by
  obtain ⟨ts, hts, hapart⟩ := h.log
  refine ⟨⟨ts, hts, fun t ht hid hpayer => absurd hpayer (hapart t ht hid)⟩, ?_⟩
  intro s' hs'
  obtain rfl := Option.some.inj (hs.symm.trans (h.record.symm.trans hs'))
  exact le_rfl

theorem Idle.withheld (h : Idle id w w') (hs : w.book.streams.lookup id = some s) :
    Withheld host payees id s w w' := h.apart.withheld hs

theorem closed_withheld (hrefund : ¬payees s.sender) : Withheld host payees id s w (closed host w id s 0) := by
  refine ⟨⟨_, rfl, ?_⟩, ?_⟩
  · intro t ht _ _
    rcases List.mem_append.mp ht with ht | ht
    · simp [positive, claimTransfer] at ht
    · rw [mem_positive ht]
      exact hrefund
  · intro s' hs'
    simp [closed] at hs'

theorem transferRecipient_withheld (hw : Accounts env.now w.book.streams)
    (hs : w.book.streams.lookup id = some s) {current : Address}
    (hearly : s.Live → ¬(s.lockUntil ≤ s.clock env.now ∧ s.cliffTime ≤ s.clock env.now)) {u : Unit}
    (h : transferRecipient id current recipient env w = .ok u w') : Withheld host payees id s w w' := by
  obtain ⟨-, r, claim, w₁, -, hh, rfl⟩ := transferRecipient_ok h
  obtain rfl := Option.some.inj (hs.symm.trans hh.stored)
  have hclaim := hh.claimed
  rw [handOverClaim, if_neg (hearly hh.live)] at hclaim
  obtain rfl := Option.some.inj hclaim
  refine ⟨⟨[], by simp [hh.paid.log, claimedTransfers], by simp⟩, ?_⟩
  intro s' hs'
  simp only [HandOver.book, Stream.advance, lt_irrefl, if_false, withBook_book, Book.handOver_streams,
    Book.save_streams, (hw id s hs).1, Finmap.lookup_insert, Option.some.injEq] at hs'
  subst hs'
  exact le_rfl

theorem Withheld.of_awake {now : Nat} (h : Withheld host payees id s (w.awake now) w') :
    Withheld host payees id s w w' :=
  ⟨h.log, h.record⟩

/-- What items on other streams keep, and the items on this one, a batch of withdrawals keeps. -/
theorem batchWithdraw_inv (id : StreamId) (I : World → Prop) (hauth : env.auths recipient = true)
    (hidle : ∀ {v v'}, Idle id v v' → I v → I v')
    (hitem : id ∈ ids → ∀ v claim v', Accounts env.now v.book.streams → I v →
      batchWithdrawItem recipient id env v = .ok claim v' → I v')
    (hw : Accounts env.now w.book.streams) (hI : I w) {claims : List Int}
    (h : each (batchWithdrawItem recipient) ids env w = .ok claims w') : I w' := by
  refine (each_inv (fun v => Accounts env.now v.book.streams ∧ I v) ?_ ⟨hw, hI⟩ h).2
  intro j hmem v claim v' ⟨hacc, hv⟩ hok
  obtain ⟨r, w₁, out, us, -, hwd, rfl⟩ := batchWithdrawItem_ok hauth hok
  refine ⟨acted_accounts (withdrawal_acted hwd) hacc, ?_⟩
  by_cases hj : id = j
  · subst hj
    exact hitem hmem v claim _ hacc hv hok
  · exact hidle (withdrawal_idle hwd (hacc j r hwd.stored).1 hj) hv

/-- A batch in which the first item on this stream turns `I` into `J`. -/
theorem batchWithdraw_turn (I J : World → Prop) (hauth : env.auths recipient = true) (hmem : id ∈ ids)
    (hI : ∀ {v v'}, Idle id v v' → I v → I v') (hJ : ∀ {v v'}, Idle id v v' → J v → J v')
    (hturn : ∀ v claim v', Accounts env.now v.book.streams → I v →
      batchWithdrawItem recipient id env v = .ok claim v' → J v')
    (hagain : ∀ v claim v', Accounts env.now v.book.streams → J v →
      batchWithdrawItem recipient id env v = .ok claim v' → J v')
    (hw : Accounts env.now w.book.streams) (hstart : I w) {claims : List Int}
    (h : each (batchWithdrawItem recipient) ids env w = .ok claims w') : J w' := by
  have haccounts : ∀ {j v claim v'}, Accounts env.now v.book.streams →
      batchWithdrawItem recipient j env v = .ok claim v' → Accounts env.now v'.book.streams := by
    intro j v claim v' hacc hok
    obtain ⟨r, w₁, out, us, -, hwd, rfl⟩ := batchWithdrawItem_ok hauth hok
    exact acted_accounts (withdrawal_acted hwd) hacc
  have hothers : ∀ {j v claim v'}, j ≠ id → Accounts env.now v.book.streams →
      batchWithdrawItem recipient j env v = .ok claim v' → Idle id v v' := by
    intro j v claim v' hne hacc hok
    obtain ⟨r, w₁, out, us, -, hwd, rfl⟩ := batchWithdrawItem_ok hauth hok
    exact withdrawal_idle hwd (hacc j r hwd.stored).1 hne.symm
  refine (each_turn (fun v => Accounts env.now v.book.streams ∧ I v) (fun v => Accounts env.now v.book.streams ∧ J v)
    hmem ?_ ?_ ?_ ⟨hw, hstart⟩ h).2
  · rintro j - hne v claim v' ⟨hacc, hv⟩ hok
    exact ⟨haccounts hacc hok, hI (hothers hne hacc hok) hv⟩
  · rintro v claim v' ⟨hacc, hv⟩ hok
    exact ⟨haccounts hacc hok, hturn v claim v' hacc hv hok⟩
  · rintro j - v claim v' ⟨hacc, hv⟩ hok
    refine ⟨haccounts hacc hok, ?_⟩
    by_cases hj : j = id
    · subst hj
      exact hagain v claim v' hacc hv hok
    · exact hJ (hothers hj hacc hok) hv

/-- Items on other streams, and an item on this one that claims nothing at its own
checkpoint, leave the stream alone. -/
theorem batchWithdraw_idle (hauth : env.auths recipient = true) (hw : Accounts env.now w.book.streams)
    (hitem : id ∈ ids → ∀ v claim v', Idle id w v → batchWithdrawItem recipient id env v = .ok claim v' →
      Idle id v v') {claims : List Int}
    (h : each (batchWithdrawItem recipient) ids env w = .ok claims w') : Idle id w w' :=
  batchWithdraw_inv id (Idle id w) hauth (fun hidle hv => hv.trans hidle)
    (fun hmem v claim v' _ hv hok => hv.trans (hitem hmem v claim v' hv hok)) hw (.refl w) h

theorem batchCreateStream_idle {a : BatchArgs} (hs : w.book.streams.lookup id = some s)
    (h : batchCreateStream a env w = .ok ids w') : Idle id w w' := by
  obtain ⟨-, hb, hitems⟩ := batchCreateStream_ok h
  have hidle : Idle id w ((w.awake env.now).withBook (w.book.countBatch a.sender (a.nonce.val + 1))) :=
    ⟨rfl, [], by simp, by simp⟩
  refine hidle.trans (each_rel (Idle id) .refl .trans ?_ hitems)
  intro entry hentry v newId v' hitem
  obtain ⟨rfl, -, -, rfl⟩ := batchCreateItem_ok hitem
  have hne : id ≠ entry.2 := by
    rintro rfl
    exact Option.some_ne_none s (hs.symm.trans (hb.free entry hentry))
  exact opened_idle (w := v) (List.forall_mem_nil _) hne

/-- A batch of cancellations skips the streams of other senders, and dead ones. -/
theorem batchCancelStream_idle {sender : Address} {results : List (Except StreamError Unit)}
    (hw : Accounts env.now w.book.streams) (hs : w.book.streams.lookup id = some s)
    (hother : id ∈ ids → s.sender = sender → ¬s.Live) (h : batchCancelStream ids sender env w = .ok results w') :
    Idle id w w' := by
  obtain ⟨-, hitems⟩ := batchCancelStream_ok h
  refine (each_inv (fun v => Accounts env.now v.book.streams ∧ Idle id w v) ?_ ⟨hw, .refl w⟩ hitems).2
  intro j hj v result v' ⟨hacc, hidle⟩ hitem
  rcases batchCancelItem_cases hitem with rfl | ⟨r, amount, hr, hsender, hlive, -, -, rfl⟩
  · exact ⟨hacc, hidle⟩
  · refine ⟨hacc.erase _, hidle.trans ?_⟩
    have hne : id ≠ j := by
      rintro rfl
      obtain rfl := Option.some.inj (hs.symm.trans (hidle.record.symm.trans hr))
      exact hother hj hsender hlive
    exact closed_idle (hacc j r hr).1 hne

theorem save_idle {q : Stream} (hid : q.id = j) (hne : id ≠ j) : Idle id w (w.withBook (w.book.save q)) :=
  ⟨Finmap.lookup_insert_of_ne _ (hid ▸ hne), [], by simp, by simp⟩

def StreamCall.targets : StreamCall → List StreamId
  | .createStream _ | .batchCreateStream _ => []
  | .batchWithdraw ids _ | .batchCancelStream ids _ => ids
  | .withdraw id _ | .cancelStream id _ | .recipientTerminate id _ | .transferRecipient id _ _
  | .partialCancelStream id _ _ | .topUp id _ _ _ | .pauseStream id _ | .resumeStream id _ | .archiveStream id _
  | .delegate _ id _ | .revokeDelegate _ id | .updateMetadata _ id _ | .cancelAutoRenew _ id => [id]

/-- A call leaves alone every stream that it is not about and does not make. -/
theorem streamCall_idle (hw : Accounts env.now w.book.streams) (hs : w.book.streams.lookup id = some s)
    {call : StreamCall} {made : List StreamId} (htarget : id ∉ call.targets) (hmade : id ∉ made)
    (h : call.exec env w = .ok made w') : Idle id w w' := by
  cases call with
  | createStream a =>
      obtain ⟨newId, _, h, rfl, rfl⟩ := bind_ok.mp h
      obtain ⟨-, rfl, fees, hc, rfl⟩ := createStream_ok h
      have hmarked : Idle id w ((w.awake env.now).withBook (w.book.markNonce a.sender a.nonce.val)) :=
        ⟨rfl, [], by simp, by simp⟩
      exact hmarked.trans (opened_idle (creationFees_payer hc.fees_eq) (List.ne_of_not_mem_cons hmade))
  | batchCreateStream a => exact batchCreateStream_idle hs h
  | withdraw j recipient =>
      obtain ⟨_, _, h, -, rfl⟩ := bind_ok.mp h
      obtain ⟨-, r, claim, w₁, out, us, -, hwd, rfl⟩ := withdraw_ok h
      exact (withdrawal_idle hwd (hw j r hwd.stored).1 (List.ne_of_not_mem_cons htarget)).of_awake
  | batchWithdraw ids recipient =>
      obtain ⟨_, _, h, -, rfl⟩ := bind_ok.mp h
      obtain ⟨-, hauth, hitems⟩ := batchWithdraw_ok h
      exact Idle.of_awake (batchWithdraw_idle hauth hw (fun hmem => absurd hmem htarget) hitems)
  | cancelStream j caller =>
      obtain ⟨_, _, h, -, rfl⟩ := bind_ok.mp h
      obtain ⟨-, r, amount, hr, -, -, -, -, rfl⟩ := cancelStream_ok.mp h
      exact closed_idle (hw j r hr).1 (List.ne_of_not_mem_cons htarget)
  | batchCancelStream ids sender =>
      obtain ⟨_, _, h, -, rfl⟩ := bind_ok.mp h
      exact batchCancelStream_idle hw hs (fun hmem => absurd hmem htarget) h
  | recipientTerminate j recipient =>
      obtain ⟨_, _, h, -, rfl⟩ := bind_ok.mp h
      obtain ⟨-, -, r, amount, hr, -, -, -, -, -, rfl⟩ := recipientTerminate_ok.mp h
      exact (closed_idle (hw j r hr).1 (List.ne_of_not_mem_cons htarget)).of_awake
  | transferRecipient j current recipient =>
      obtain ⟨_, _, h, -, rfl⟩ := bind_ok.mp h
      obtain ⟨-, r, claim, w₁, -, hh, rfl⟩ := transferRecipient_ok h
      exact (handedOver_idle hh (hw j r hh.stored).1 (List.ne_of_not_mem_cons htarget)).of_awake
  | partialCancelStream j caller cancelAmount =>
      obtain ⟨newId, _, h, rfl, rfl⟩ := bind_ok.mp h
      obtain ⟨-, r, earned, streamed, -, rfl, hsplit, rfl⟩ := partialCancelStream_ok h
      have hid := (hw j r hsplit.stored).1
      have hne := List.ne_of_not_mem_cons htarget
      refine .of_cause ?_ rfl (fun t ht => (splitTransfers_cause t ht).trans (congrArg some hid)) hne
      exact (Finmap.lookup_insert_of_ne _ (List.ne_of_not_mem_cons hmade)).trans
        (Finmap.lookup_insert_of_ne _ (hid ▸ hne))
  | topUp j caller token amount =>
      obtain ⟨_, _, h, -, rfl⟩ := bind_ok.mp h
      obtain ⟨-, r, -, ht, rfl⟩ := topUp_ok h
      have hid := (hw j r ht.stored).1
      have hne := List.ne_of_not_mem_cons htarget
      refine Idle.of_awake (.of_cause (Finmap.lookup_insert_of_ne _ (hid ▸ hne)) rfl ?_ hne)
      intro t hmem
      rw [List.mem_singleton.mp hmem]
      exact congrArg some hid
  | pauseStream j sender =>
      obtain ⟨_, _, h, -, rfl⟩ := bind_ok.mp h
      obtain ⟨-, r, hr, -, -, -, rfl⟩ := pauseStream_ok h
      have hid : ({ r with status := .paused, lastPauseTime := env.now } : Stream).id = j := (hw j r hr).1
      exact (save_idle hid (List.ne_of_not_mem_cons htarget)).of_awake
  | resumeStream j sender =>
      obtain ⟨_, _, h, -, rfl⟩ := bind_ok.mp h
      obtain ⟨-, r, hr, -, -, -, rfl⟩ := resumeStream_ok h
      exact (save_idle (q := resumed r (env.now - r.lastPauseTime)) (hw j r hr).1
        (List.ne_of_not_mem_cons htarget)).of_awake
  | archiveStream j caller =>
      obtain ⟨_, _, h, -, rfl⟩ := bind_ok.mp h
      obtain ⟨_, _, rfl⟩ := archiveStream_ok h
      exact ⟨Finmap.lookup_erase_ne (List.ne_of_not_mem_cons htarget), [], by simp, by simp⟩
  | delegate sender j operator =>
      obtain ⟨_, _, h, -, rfl⟩ := bind_ok.mp h
      obtain ⟨r, -, -, -, rfl⟩ := delegate_ok h
      exact ⟨rfl, [], by simp, by simp⟩
  | revokeDelegate sender j =>
      obtain ⟨_, _, h, -, rfl⟩ := bind_ok.mp h
      obtain ⟨r, -, -, -, rfl⟩ := revokeDelegate_ok h
      exact ⟨rfl, [], by simp, by simp⟩
  | updateMetadata sender j metadata =>
      obtain ⟨_, _, h, -, rfl⟩ := bind_ok.mp h
      obtain ⟨r, hr, -, -, -, rfl⟩ := updateMetadata_ok h
      exact save_idle (q := { r with metadata }) (hw j r hr).1 (List.ne_of_not_mem_cons htarget)
  | cancelAutoRenew sender j =>
      obtain ⟨_, _, h, -, rfl⟩ := bind_ok.mp h
      obtain ⟨r, hr, -, -, rfl⟩ := cancelAutoRenew_ok h
      exact save_idle (q := { r with autoRenew := false }) (hw j r hr).1 (List.ne_of_not_mem_cons htarget)

end SoroStream
