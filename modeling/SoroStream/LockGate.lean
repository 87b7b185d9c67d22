import SoroStream.CliffGate

namespace SoroStream

open Lib Lib.Rollback Lib.Rollback.Prog Contract

variable {host : Host} {env : Env host} {c : Chain} {w w' : World} {id j : StreamId} {q r s : Stream} {u : Unit}
  {payees : Address → Prop} {ids : List StreamId} {recipient : Address}

theorem Aside.withheld (h : Aside host w w') (hs : w.book.streams.lookup id = some s) :
    Withheld host payees id s w w' := by
  obtain ⟨ts, hts, hpayout⟩ := h.log
  refine ⟨⟨ts, hts, ?_⟩, ?_⟩
  · intro t ht hid
    rw [hpayout t ht] at hid
    exact absurd hid (by simp [Cause.stream?])
  · intro s' hs'
    rw [h.book] at hs'
    obtain rfl := Option.some.inj (hs.symm.trans hs')
    exact le_rfl

/-- The saved record counts no more as withdrawn than the one it replaces. -/
theorem saved_withheld {ts : List Transfer} (hw : Accounts env.now w.book.streams)
    (hs : w.book.streams.lookup id = some s) (hr : w.book.streams.lookup j = some r) (hid : q.id = r.id)
    (htotal : q.totalWithdrawn = r.totalWithdrawn) (hpayer : ∀ t ∈ ts, t.payer ≠ host.contract) :
    Withheld host payees id s w ((w.pay ts).withBook (w.book.save q)) := by
  refine ⟨⟨ts, rfl, fun t ht _ hp => absurd hp (hpayer t ht)⟩, ?_⟩
  intro s' hs'
  have hj : q.id = j := hid.trans (hw j r hr).1
  change (w.book.streams.insert q.id q).lookup id = some s' at hs'
  by_cases hne : id = j
  · subst hne
    rw [hj, Finmap.lookup_insert] at hs'
    obtain rfl := Option.some.inj (hs.symm.trans hr)
    obtain rfl := Option.some.inj hs'
    exact htotal.le
  · rw [Finmap.lookup_insert_of_ne _ (hj ▸ hne), hs] at hs'
    obtain rfl := Option.some.inj hs'
    exact le_rfl

theorem amended_withheld (hw : Accounts env.now w.book.streams) (hs : w.book.streams.lookup id = some s)
    (hr : w.book.streams.lookup j = some r) (hid : q.id = r.id) (htotal : q.totalWithdrawn = r.totalWithdrawn) :
    Withheld host payees id s w (w.withBook (w.book.save q)) := by
  have hnone : ∀ t ∈ ([] : List Transfer), t.payer ≠ host.contract := by simp
  simpa only [pay_nil] using saved_withheld hw hs hr hid htotal hnone

theorem redelegated_withheld (hs : w.book.streams.lookup id = some s) (operator : Option Address) :
    Withheld host payees id s w (w.withBook (w.book.setDelegate j operator)) := by
  have hidle : Idle id w (w.withBook (w.book.setDelegate j operator)) := ⟨rfl, [], by simp, by simp⟩
  exact hidle.withheld hs

section Locked

variable (hw : Accounts env.now w.book.streams) (hs : w.book.streams.lookup id = some s)
  (hlock : s.clock env.now < s.lockUntil)

include hlock in
/-- A withdrawal checks the lock against the ledger time, and the stream is active. -/
theorem withdrawal_unlocks {single : Bool} {claim : Int} {w₁ : World} {out : Option Stream} {us : List Transfer} :
    ¬Withdrawal env w single j s claim w₁ out us := by
  intro hwd
  have hclock : s.clock env.now = env.now := by simp [Stream.clock, hwd.active]
  exact absurd (hclock ▸ hlock) (not_lt.mpr hwd.unlocked)

include hw hs hlock in
theorem withdraw_locked (h : withdraw j recipient env w = .ok u w') : Withheld host payees id s w w' := by
  obtain ⟨-, r, claim, w₁, out, us, -, hwd, rfl⟩ := withdraw_ok h
  have hne : id ≠ j := by
    rintro rfl
    obtain rfl := Option.some.inj (hs.symm.trans hwd.stored)
    exact withdrawal_unlocks hlock hwd
  exact ((withdrawal_idle hwd (hw j r hwd.stored).1 hne).withheld hs).of_awake

include hw hs hlock in
theorem batchWithdraw_locked {claims : List Int} (h : batchWithdraw ids recipient env w = .ok claims w') :
    Withheld host payees id s w w' := by
  obtain ⟨-, hauth, hitems⟩ := batchWithdraw_ok h
  have hidle : Idle id (w.awake env.now) w' := by
    refine batchWithdraw_idle hauth hw ?_ hitems
    intro _ v claim v' hbefore hitem
    obtain ⟨r, w₁, out, us, -, hwd, rfl⟩ := batchWithdrawItem_ok hauth hitem
    obtain rfl := Option.some.inj (hs.symm.trans (hbefore.record.symm.trans hwd.stored))
    exact (withdrawal_unlocks hlock hwd).elim
  exact (hidle.withheld hs).of_awake

include hw hs hlock in
theorem transferRecipient_locked {current : Address} (h : transferRecipient j current recipient env w = .ok u w') :
    Withheld host payees id s w w' := by
  by_cases hne : id = j
  · subst hne
    exact transferRecipient_withheld hw hs (fun _ hopen => absurd hopen.1 (not_le.mpr hlock)) h
  · obtain ⟨-, r, claim, w₁, -, hh, rfl⟩ := transferRecipient_ok h
    exact ((handedOver_idle hh (hw j r hh.stored).1 hne).withheld hs).of_awake

include hw hs in
/-- A partial cancellation of another stream may write its successor over this
record: then nothing is withdrawn of what is stored. -/
theorem partialCancelStream_elsewhere {caller : Address} {cancelAmount : Int} {newId : StreamId} (hne : id ≠ j)
    (h : partialCancelStream j caller cancelAmount env w = .ok newId w') : Withheld host payees id s w w' := by
  obtain ⟨-, r, earned, streamed, -, -, hsplit, rfl⟩ := partialCancelStream_ok h
  have hid := (hw j r hsplit.stored).1
  refine ⟨⟨_, rfl, ?_⟩, ?_⟩
  · intro t ht hcause
    rw [splitTransfers_cause t ht, hid] at hcause
    exact absurd (Option.some.inj hcause).symm hne
  · intro s' hs'
    let new := splitSuccessor host j r (r.clock env.now) (splitDeposit r streamed cancelAmount)
    change ((w.book.streams.insert r.id { r with status := .cancelled }).insert new.id new).lookup id = some s' at hs'
    by_cases hnew : id = new.id
    · rw [hnew, Finmap.lookup_insert] at hs'
      obtain rfl := Option.some.inj hs'
      exact (hw id s hs).2.withdrawn_nonneg
    · rw [Finmap.lookup_insert_of_ne _ hnew, Finmap.lookup_insert_of_ne _ (hid ▸ hne), hs] at hs'
      obtain rfl := Option.some.inj hs'
      exact le_rfl

include hw hs in
/-- `recipient_terminate` does not look at the lock: it withholds only what the cliff
withholds, and what has not flowed. -/
theorem recipientTerminate_withheld_iff (hsender : s.sender ≠ s.recipient)
    (h : recipientTerminate id recipient env w = .ok u w') :
    Withheld host (fun a => a = s.recipient) id s w w' ↔
      ¬(s.cliffTime ≤ s.clock env.now ∧ s.lastWithdrawTime < min (s.clock env.now) s.endTime) := by
  obtain ⟨hid, hsound⟩ := hw id s hs
  obtain ⟨-, -, r, amount, hr, -, -, hlive, hclaim, -, rfl⟩ := recipientTerminate_ok.mp h
  obtain rfl := Option.some.inj (hs.symm.trans hr)
  have hamount := claimableAt_eq hclaim
  constructor
  · rintro hheld ⟨hcliff, hmark⟩
    have hpos : 0 < amount := by
      rw [hamount, if_neg (not_lt.mpr hcliff)]
      exact flowed_pos hsound.rate hmark
    obtain ⟨ts, hts, hnone⟩ := hheld.log
    obtain rfl : closingTransfers host s amount = ts := List.append_cancel_left hts
    have hpaid : claimTransfer host s amount ∈ closingTransfers host s amount := by
      simp [closingTransfers, positive, claimTransfer, hpos]
    exact hnone _ hpaid (congrArg some hid) rfl rfl
  · intro hopen
    have hzero : amount = 0 := by
      rw [hamount]
      split
      · rfl
      · next hcliff => exact flowed_eq_zero (not_lt.mp fun hmark => hopen ⟨not_lt.mp hcliff, hmark⟩)
    subst hzero
    exact (closed_withheld hsender).of_awake

end Locked

/-- The cancellations of a stream that its sender or the sender's delegate signs. -/
inductive Cancels (env : Env host) (w : World) (id : StreamId) (s : Stream) : Call → Prop
  | cancel (caller : Address) (hauth : env.auths caller = true)
      (h : s.sender = caller ∨ w.book.delegates id = some caller) :
      Cancels env w id s (.stream (.cancelStream id caller))
  | partialCancel (caller : Address) (amount : I128) (hauth : env.auths caller = true)
      (h : s.sender = caller ∨ w.book.delegates id = some caller) :
      Cancels env w id s (.stream (.partialCancelStream id caller amount))
  | batchCancel (ids : List StreamId) (h : id ∈ ids) (hauth : env.auths s.sender = true) :
      Cancels env w id s (.stream (.batchCancelStream ids s.sender))

/-- Every stream call but a termination of this very stream leaves it alone or is a
cancellation by its sender. -/
theorem streamCall_locked (hw : Accounts env.now w.book.streams) (hs : w.book.streams.lookup id = some s)
    (hlock : s.clock env.now < s.lockUntil) {call : StreamCall} {out : List StreamId}
    (hother : ∀ recipient, call ≠ .recipientTerminate id recipient) (h : call.exec env w = .ok out w') :
    Withheld host payees id s w w' ∨ Cancels env w id s (.stream call) := by
  have hawake : Accounts env.now (w.awake env.now).book.streams := hw
  have hs' : (w.awake env.now).book.streams.lookup id = some s := hs
  cases call with
  | createStream a =>
      obtain ⟨newId, _, h, -, rfl⟩ := bind_ok.mp h
      obtain ⟨-, -, fees, hc, rfl⟩ := createStream_ok h
      have hne : id ≠ (createdStream host a env.now).id := by
        rintro rfl
        exact Option.some_ne_none s (hs.symm.trans hc.free)
      have hmarked : Idle id w ((w.awake env.now).withBook (w.book.markNonce a.sender a.nonce.val)) :=
        ⟨rfl, [], by simp, by simp⟩
      exact .inl ((hmarked.trans (opened_idle (creationFees_payer hc.fees_eq) hne)).withheld hs)
  | batchCreateStream a => exact .inl ((batchCreateStream_idle hs h).withheld hs)
  | withdraw j recipient =>
      obtain ⟨_, _, h, -, rfl⟩ := bind_ok.mp h
      exact .inl (withdraw_locked hw hs hlock h)
  | batchWithdraw ids recipient =>
      obtain ⟨_, _, h, -, rfl⟩ := bind_ok.mp h
      exact .inl (batchWithdraw_locked hw hs hlock h)
  | cancelStream j caller =>
      obtain ⟨_, _, h, -, rfl⟩ := bind_ok.mp h
      obtain ⟨hauth, r, amount, hr, hcaller, -, -, -, rfl⟩ := cancelStream_ok.mp h
      by_cases hne : id = j
      · subst hne
        obtain rfl := Option.some.inj (hs.symm.trans hr)
        exact .inr (.cancel caller hauth hcaller)
      · exact .inl ((closed_idle (hw j r hr).1 hne).withheld hs)
  | batchCancelStream ids sender =>
      obtain ⟨_, _, h, -, rfl⟩ := bind_ok.mp h
      by_cases hmine : id ∈ ids ∧ s.sender = sender
      · obtain ⟨hmem, rfl⟩ := hmine
        exact .inr (.batchCancel ids hmem (batchCancelStream_ok h).1)
      · exact .inl ((batchCancelStream_idle hw hs (fun hmem hsame => absurd ⟨hmem, hsame⟩ hmine) h).withheld hs)
  | recipientTerminate j recipient =>
      obtain ⟨_, _, h, -, rfl⟩ := bind_ok.mp h
      have hne : id ≠ j := by
        rintro rfl
        exact hother recipient rfl
      obtain ⟨-, -, r, amount, hr, -, -, -, -, -, rfl⟩ := recipientTerminate_ok.mp h
      exact .inl ((closed_idle (hw j r hr).1 hne).withheld hs').of_awake
  | transferRecipient j current recipient =>
      obtain ⟨_, _, h, -, rfl⟩ := bind_ok.mp h
      exact .inl (transferRecipient_locked hw hs hlock h)
  | partialCancelStream j caller cancelAmount =>
      obtain ⟨newId, _, h, -, rfl⟩ := bind_ok.mp h
      by_cases hne : id = j
      · subst hne
        obtain ⟨hauth, r, earned, streamed, hcaller, -, hsplit, -⟩ := partialCancelStream_ok h
        obtain rfl := Option.some.inj (hs.symm.trans hsplit.stored)
        exact .inr (.partialCancel caller cancelAmount hauth hcaller)
      · exact .inl (partialCancelStream_elsewhere hw hs hne h)
  | topUp j caller token amount =>
      obtain ⟨_, _, h, -, rfl⟩ := bind_ok.mp h
      obtain ⟨-, r, -, ht, rfl⟩ := topUp_ok h
      refine .inl (saved_withheld (q := r.toppedUp _) hawake hs' ht.stored rfl rfl ?_).of_awake
      intro t ht'
      rw [List.mem_singleton.mp ht']
      exact signer_ne_contract ht.signed
  | pauseStream j sender =>
      obtain ⟨_, _, h, -, rfl⟩ := bind_ok.mp h
      obtain ⟨-, r, hr, -, -, -, rfl⟩ := pauseStream_ok h
      have hpaused : Withheld host payees id s _ _ :=
        amended_withheld (q := { r with status := .paused, lastPauseTime := env.now }) hawake hs' hr rfl rfl
      exact .inl hpaused.of_awake
  | resumeStream j sender =>
      obtain ⟨_, _, h, -, rfl⟩ := bind_ok.mp h
      obtain ⟨-, r, hr, -, -, -, rfl⟩ := resumeStream_ok h
      exact .inl (amended_withheld (q := resumed r (env.now - r.lastPauseTime)) hawake hs' hr rfl rfl).of_awake
  | archiveStream j caller =>
      obtain ⟨_, _, h, -, rfl⟩ := bind_ok.mp h
      obtain ⟨r, ha, rfl⟩ := archiveStream_ok h
      refine .inl ⟨⟨[], by simp, by simp⟩, ?_⟩
      intro s' hstill
      change (w.book.streams.erase j).lookup id = some s' at hstill
      by_cases hne : id = j
      · rw [hne, Finmap.lookup_erase] at hstill
        exact absurd hstill (Option.some_ne_none s').symm
      · rw [Finmap.lookup_erase_ne hne, hs] at hstill
        obtain rfl := Option.some.inj hstill
        exact le_rfl
  | delegate sender j operator =>
      obtain ⟨_, _, h, -, rfl⟩ := bind_ok.mp h
      obtain ⟨r, -, -, -, rfl⟩ := delegate_ok h
      exact .inl (redelegated_withheld hs (some operator))
  | revokeDelegate sender j =>
      obtain ⟨_, _, h, -, rfl⟩ := bind_ok.mp h
      obtain ⟨r, -, -, -, rfl⟩ := revokeDelegate_ok h
      exact .inl (redelegated_withheld hs none)
  | updateMetadata sender j metadata =>
      obtain ⟨_, _, h, -, rfl⟩ := bind_ok.mp h
      obtain ⟨r, hr, -, -, -, rfl⟩ := updateMetadata_ok h
      exact .inl (amended_withheld hw hs hr rfl rfl)
  | cancelAutoRenew sender j =>
      obtain ⟨_, _, h, -, rfl⟩ := bind_ok.mp h
      obtain ⟨r, hr, -, -, rfl⟩ := cancelAutoRenew_ok h
      exact .inl (amended_withheld hw hs hr rfl rfl)

/-- While a stream is locked, every call withholds it from its recipient or is a
cancellation by its sender or delegate, unless the recipient terminates it at a time
when the cliff has passed and something has flowed since the checkpoint. -/
theorem lock_gate_iff (env : Env host) (h : Reached host c) (hnow : c.now ≤ env.now)
    (hs : c.world.book.streams.lookup id = some s) (hlock : s.clock env.now < s.lockUntil)
    (hrecipient : s.sender ≠ s.recipient) {call : Call} {out : List StreamId}
    (hok : call.exec env c.world = .ok out w') :
    (Withheld host (fun a => a = s.recipient) id s c.world w' ∨ Cancels env c.world id s call) ↔
      ¬((∃ recipient, call = .stream (.recipientTerminate id recipient)) ∧ s.cliffTime ≤ s.clock env.now ∧
        s.lastWithdrawTime < min (s.clock env.now) s.endTime) := by
  have hacc := (reached_accounts h).mono hnow
  cases call with
  | stream call =>
      by_cases hterm : ∃ recipient, call = .recipientTerminate id recipient
      · obtain ⟨recipient, rfl⟩ := hterm
        obtain ⟨_, _, hok, -, rfl⟩ := bind_ok.mp hok
        have hcancels : ¬Cancels env c.world id s (.stream (.recipientTerminate id recipient)) := nofun
        rw [or_iff_left hcancels, recipientTerminate_withheld_iff hacc hs hrecipient hok]
        exact not_congr ⟨fun hopen => ⟨⟨recipient, rfl⟩, hopen⟩, And.right⟩
      · refine iff_of_true (streamCall_locked hacc hs hlock (fun r hr => hterm ⟨r, hr⟩) hok) ?_
        rintro ⟨⟨recipient, hcall⟩, -⟩
        cases hcall
        exact hterm ⟨recipient, rfl⟩
  | config call =>
      obtain ⟨_, _, hok, -, rfl⟩ := bind_ok.mp hok
      exact iff_of_true (.inl ((configCall_aside call hok).withheld hs)) (by simp)
  | view v =>
      obtain ⟨_, _, hok, -, rfl⟩ := bind_ok.mp hok
      obtain rfl := view_silent v hok
      exact iff_of_true (.inl ((Aside.refl _).withheld hs)) (by simp)

namespace Sample

def locked : Chain := genesis.after [opening 0 3000]

def terminateCall : StreamCall := .recipientTerminate streamId (party 3)

def terminated : World := (terminateCall.exec (signed [3] 1000) locked.world).commit locked.world

end Sample

theorem sample_lock_gate_iff :
    (Withheld Sample.site (fun a => a = Sample.party 3) Sample.streamId
        (createdStream Sample.site (Sample.terms 0 3000) 10) Sample.locked.world Sample.terminated ∨
      Cancels (Sample.signed [3] 1000) Sample.locked.world Sample.streamId
        (createdStream Sample.site (Sample.terms 0 3000) 10) (.stream Sample.terminateCall)) ↔
      ¬((∃ recipient, Call.stream Sample.terminateCall = .stream (.recipientTerminate Sample.streamId recipient)) ∧
        10 ≤ 1000 ∧ 10 < min 1000 4010) := by
  have hreached : Reached Sample.site Sample.locked := reached_after Sample.genesis_fresh (by decide)
  have hstored : Sample.locked.world.book.streams.lookup Sample.streamId =
      some (createdStream Sample.site (Sample.terms 0 3000) 10) := by decide
  have hok : Call.exec (.stream Sample.terminateCall) (Sample.signed [3] 1000) Sample.locked.world =
      .ok [] Sample.terminated := Outcome.ok_commit (by decide) _
  exact lock_gate_iff (Sample.signed [3] 1000) hreached (by decide) hstored (by decide) (by decide) hok

theorem termination_jumps_lock :
    Reached Sample.site Sample.locked ∧
    Sample.locked.world.book.streams.lookup Sample.streamId =
      some (createdStream Sample.site (Sample.terms 0 3000) 10) ∧
    (createdStream Sample.site (Sample.terms 0 3000) 10).clock 1000 <
      (createdStream Sample.site (Sample.terms 0 3000) 10).lockUntil ∧
    (Sample.terminateCall.exec (Sample.signed [3] 1000) Sample.locked.world).value? = some [] ∧
    Sample.locked.world.balances (Sample.party 9) (Sample.party 3) = 1000000 ∧
    Sample.terminated.balances (Sample.party 9) (Sample.party 3) = 1024750 :=
  ⟨reached_after Sample.genesis_fresh (by decide), by decide, by decide, by decide, by decide, by decide +kernel⟩

end SoroStream
