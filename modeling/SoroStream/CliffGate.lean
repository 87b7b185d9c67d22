import SoroStream.Apart
import SoroStream.PathIndependence

namespace SoroStream

open Lib Lib.Rollback Lib.Rollback.Prog Contract

variable {host : Host} {env : Env host} {c : Chain} {w w' : World} {id j : StreamId} {r s : Stream}
  {payees : Address → Prop} {claim amount : Int} {ids : List StreamId} {recipient : Address}

/-- The calls a recipient may make on a stream that take something of it. -/
inductive RecipientCall (id : StreamId) : StreamCall → Prop
  | withdraw (recipient : Address) : RecipientCall id (.withdraw id recipient)
  | batchWithdraw (ids : List StreamId) (recipient : Address) (h : id ∈ ids) :
      RecipientCall id (.batchWithdraw ids recipient)
  | transferRecipient (current recipient : Address) : RecipientCall id (.transferRecipient id current recipient)
  | recipientTerminate (recipient : Address) : RecipientCall id (.recipientTerminate id recipient)

/-- Before the end of the stream a withdrawal only saves the record. -/
theorem withdrawal_running {single : Bool} {w₁ : World} {out : Option Stream} {us : List Transfer}
    (h : Withdrawal env w single id s claim w₁ out us) (hid : s.id = id) (hend : env.now < s.endTime) :
    us = [] ∧ (Withdrawal.result w₁ id s claim env.now out us).book.streams.lookup id =
      some (s.checkpoint claim env.now) := by
  have hset := h.settled
  have hlate : ¬s.endTime ≤ env.now := not_le.mpr hend
  cases hset with
  | running _ => exact ⟨rfl, h.lookup hid⟩
  | renewed hdue | lapsed hdue | finished hdue => exact absurd hdue hlate

/-- A claim of nothing that does not move the checkpoint leaves the stream alone. -/
theorem withdrawal_waits {single : Bool} {w₁ : World} {out : Option Stream} {us : List Transfer}
    (h : Withdrawal env w single id s 0 w₁ out us) (hid : s.id = id) (hend : env.now < s.endTime)
    (hmark : s.lastWithdrawTime = env.now) :
    Idle id w (Withdrawal.result w₁ id s 0 env.now out us) := by
  obtain ⟨rfl, hlookup⟩ := withdrawal_running h hid hend
  have hmin : min env.now s.endTime = s.lastWithdrawTime := (min_eq_left hend.le).trans hmark.symm
  have hsame : s.checkpoint 0 env.now = s := by simp [Stream.checkpoint, Stream.credit, hmin]
  refine ⟨?_, [], by simp [withdrawal_log h, claimedTransfers], by simp⟩
  rw [hlookup, hsame, h.stored]

theorem flowed_pos (hrate : 1 ≤ s.flowRate) {t : Nat} (h : s.lastWithdrawTime < min t s.endTime) :
    0 < flowed s t :=
  Int.mul_pos (by omega) (by omega)

theorem flowed_eq_zero {t : Nat} (h : min t s.endTime ≤ s.lastWithdrawTime) : flowed s t = 0 := by
  rw [flowed, Nat.sub_eq_zero_of_le h, Nat.cast_zero, mul_zero]

theorem withdrawal_counts {single : Bool} {claim : Int} {w₁ : World} {out : Option Stream} {us : List Transfer}
    (h : Withdrawal env w single id s claim w₁ out us) (hsound : Sound env.now s) :
    s.totalWithdrawn ≤ (s.checkpoint claim env.now).totalWithdrawn := by
  have hpos := claim_nonneg hsound.toAccounted (claimFor_cases h.claimed)
  have htotal := checkpoint_remaining hpos s env.now
  simp only [Stream.remaining, Stream.checkpoint, Stream.credit] at htotal ⊢
  omega

/-- Before the cliff a batch pays a stream whose checkpoint lies behind. -/
theorem batchWithdraw_pays (hauth : env.auths recipient = true) (hw : Accounts env.now w.book.streams)
    (hs : w.book.streams.lookup id = some s) (hend : env.now < s.endTime) (hmark : s.lastWithdrawTime < env.now)
    (hmem : id ∈ ids) {claims : List Int} (h : each (batchWithdrawItem recipient) ids env w = .ok claims w') :
    ∃ s', w'.book.streams.lookup id = some s' ∧ s.totalWithdrawn < s'.totalWithdrawn := by
  have hpaid := batchWithdraw_turn (fun v => v.book.streams.lookup id = some s)
    (fun v => ∃ q, v.book.streams.lookup id = some q ∧ s.totalWithdrawn < q.totalWithdrawn ∧ env.now < q.endTime)
    hauth hmem (fun hidle hs => hidle.record.trans hs) ?_ ?_ ?_ hw hs h
  · obtain ⟨q, hq, hmore, -⟩ := hpaid
    exact ⟨q, hq, hmore⟩
  · rintro v v' hidle ⟨q, hq, hmore⟩
    exact ⟨q, hidle.record.trans hq, hmore⟩
  · intro v claim _ hacc hv hok
    obtain ⟨r, w₁, out, us, -, hwd, rfl⟩ := batchWithdrawItem_ok hauth hok
    obtain rfl := Option.some.inj (hv.symm.trans hwd.stored)
    obtain ⟨hid, hsound⟩ := hacc id s hv
    have hclaim : claim = flowed s env.now := earnedAt_eq hwd.claimed
    have hpos : 0 < flowed s env.now := flowed_pos hsound.rate (by rwa [min_eq_left hend.le])
    have hmore : s.totalWithdrawn < (s.checkpoint claim env.now).totalWithdrawn := by
      simp only [Stream.checkpoint, Stream.credit, hclaim, if_pos hpos]
      omega
    exact ⟨_, (withdrawal_running hwd hid hend).2, hmore, hend⟩
  · -- once paid, the record stays paid until the end of the batch
    rintro v claim _ hacc ⟨q, hq, hmore, hqend⟩ hok
    obtain ⟨r, w₁, out, us, -, hwd, rfl⟩ := batchWithdrawItem_ok hauth hok
    obtain rfl := Option.some.inj (hq.symm.trans hwd.stored)
    obtain ⟨hid, hsound⟩ := hacc id q hq
    exact ⟨_, (withdrawal_running hwd hid hqend).2, hmore.trans_le (withdrawal_counts hwd hsound), hqend⟩

theorem getClaimable_before_cliff (hw : Accounts env.now w.book.streams) (hs : w.book.streams.lookup id = some s)
    (hcliff : env.now < s.cliffTime) : getClaimable id env w = .ok 0 w := by
  have hsound := (hw id s hs).2
  rw [getClaimable_eq hsound hs, if_neg]
  rintro ⟨hlive, hopen⟩
  exact absurd (hopen.trans (hsound.clock hlive).2) (not_le.mpr hcliff)

theorem withdraw_before_cliff (hw : Accounts env.now w.book.streams) (hs : w.book.streams.lookup id = some s)
    (hcliff : env.now < s.cliffTime) {u : Unit} (h : withdraw id recipient env w = .ok u w') :
    Withheld host payees id s w w' := by
  obtain ⟨hid, hsound⟩ := hw id s hs
  obtain ⟨-, r, claim, w₁, out, us, -, hwd, rfl⟩ := withdraw_ok h
  obtain rfl := Option.some.inj (hs.symm.trans hwd.stored)
  have hclaim := claimableAt_eq hwd.claimed
  rw [if_pos hcliff] at hclaim
  subst hclaim
  obtain ⟨rfl, hlookup⟩ := withdrawal_running hwd hid (hcliff.trans_le hsound.cliff)
  refine ⟨⟨[], by simp [withdrawal_log hwd, claimedTransfers], by simp⟩, ?_⟩
  intro s' hs'
  obtain rfl := Option.some.inj (hlookup.symm.trans hs')
  simp [Stream.checkpoint, Stream.credit]

/-- The claim of an item knows no cliff: it is nothing only when the checkpoint is
already at the ledger time. -/
theorem batchWithdraw_before_cliff (hw : Accounts env.now w.book.streams)
    (hs : w.book.streams.lookup id = some s) (hcliff : env.now < s.cliffTime) (hmem : id ∈ ids)
    {claims : List Int} (h : batchWithdraw ids recipient env w = .ok claims w') :
    Withheld host payees id s w w' ↔ ¬s.lastWithdrawTime < env.now := by
  obtain ⟨-, hsound⟩ := hw id s hs
  have hend : env.now < s.endTime := hcliff.trans_le hsound.cliff
  have hawake : Accounts env.now (w.awake env.now).book.streams := hw
  have hs' : (w.awake env.now).book.streams.lookup id = some s := hs
  obtain ⟨-, hauth, hitems⟩ := batchWithdraw_ok h
  constructor
  · intro hheld hmark
    obtain ⟨q, hq, hlt⟩ := batchWithdraw_pays hauth hawake hs' hend hmark hmem hitems
    exact absurd (hheld.record q hq) (not_le.mpr hlt)
  · intro hmark
    have hidle : Idle id (w.awake env.now) w' := by
      refine batchWithdraw_idle hauth hawake ?_ hitems
      intro _ v claim v' hbefore hitem
      obtain ⟨r, w₁, out, us, -, hwd, rfl⟩ := batchWithdrawItem_ok hauth hitem
      obtain rfl := Option.some.inj (hs'.symm.trans (hbefore.record.symm.trans hwd.stored))
      have hstill : s.lastWithdrawTime = env.now := le_antisymm (hsound.active hwd.active) (not_lt.mp hmark)
      have hzero : claim = 0 :=
        (earnedAt_eq hwd.claimed).trans (flowed_eq_zero ((min_le_left _ _).trans hstill.ge))
      subst hzero
      exact withdrawal_waits hwd (hw id s hs).1 hend hstill
    exact (hidle.withheld hs').of_awake

theorem recipientTerminate_before_cliff (hw : Accounts env.now w.book.streams)
    (hs : w.book.streams.lookup id = some s) (hcliff : env.now < s.cliffTime) (hsender : ¬payees s.sender)
    {u : Unit} (h : recipientTerminate id recipient env w = .ok u w') : Withheld host payees id s w w' := by
  obtain ⟨-, -, r, amount, hr, -, -, hlive, hclaim, -, rfl⟩ := recipientTerminate_ok.mp h
  obtain rfl := Option.some.inj (hs.symm.trans hr)
  have hearly : s.clock env.now < s.cliffTime := (((hw id s hs).2.clock hlive).2).trans_lt hcliff
  have hzero := claimableAt_eq hclaim
  rw [if_pos hearly] at hzero
  subst hzero
  exact (closed_withheld hsender).of_awake

/-- Before the cliff nothing of a stream reaches its recipient or the treasury by a
call of the recipient's, except through `batch_withdraw`, which pays exactly when
the checkpoint lies behind. -/
theorem cliff_gate_iff (env : Env host) (h : Reached host c) (hnow : c.now ≤ env.now)
    (hs : c.world.book.streams.lookup id = some s) (hcliff : env.now < s.cliffTime)
    (hrecipient : s.sender ≠ s.recipient) (htreasury : Storage.getTreasury c.world ≠ some s.sender) :
    getClaimable id env c.world = .ok 0 c.world ∧
    ∀ call ids w', RecipientCall id call → call.exec env c.world = .ok ids w' →
      (Withheld host (fun a => a = s.recipient ∨ Storage.getTreasury c.world = some a) id s c.world w' ↔
        ¬((∃ ids recipient, call = .batchWithdraw ids recipient) ∧ s.lastWithdrawTime < env.now)) := by
  have hacc := (reached_accounts h).mono hnow
  refine ⟨getClaimable_before_cliff hacc hs hcliff, ?_⟩
  intro call ids w' hcall hok
  cases hcall with
  | withdraw recipient =>
      obtain ⟨_, _, hok, -, rfl⟩ := bind_ok.mp hok
      exact iff_of_true (withdraw_before_cliff hacc hs hcliff hok) (by simp)
  | batchWithdraw ids recipient hmem =>
      obtain ⟨claims, _, hok, -, rfl⟩ := bind_ok.mp hok
      refine (batchWithdraw_before_cliff hacc hs hcliff hmem hok).trans (not_congr ?_)
      exact ⟨fun hmark => ⟨⟨ids, recipient, rfl⟩, hmark⟩, And.right⟩
  | transferRecipient current recipient =>
      obtain ⟨_, _, hok, -, rfl⟩ := bind_ok.mp hok
      have hearly : s.Live → ¬(s.lockUntil ≤ s.clock env.now ∧ s.cliffTime ≤ s.clock env.now) :=
        fun hlive hopen => absurd (hopen.2.trans ((hacc id s hs).2.clock hlive).2) (not_le.mpr hcliff)
      exact iff_of_true (transferRecipient_withheld hacc hs hearly hok) (by simp)
  | recipientTerminate recipient =>
      obtain ⟨_, _, hok, -, rfl⟩ := bind_ok.mp hok
      have hsender : ¬(s.sender = s.recipient ∨ Storage.getTreasury c.world = some s.sender) :=
        not_or.mpr ⟨hrecipient, htreasury⟩
      exact iff_of_true (recipientTerminate_before_cliff hacc hs hcliff hsender hok) (by simp)

namespace Sample

def batchCall : StreamCall := .batchWithdraw [streamId] (party 3)

def batched : World := (batchCall.exec (signed [3] 300) opened.world).commit opened.world

end Sample

theorem sample_cliff_gate_iff :
    getClaimable Sample.streamId (Sample.signed [3] 300) Sample.opened.world = .ok 0 Sample.opened.world ∧
    (Withheld Sample.site (fun a => a = Sample.party 3 ∨ Storage.getTreasury Sample.opened.world = some a)
        Sample.streamId (createdStream Sample.site (Sample.terms 500 0) 10) Sample.opened.world Sample.batched ↔
      ¬((∃ ids recipient, Sample.batchCall = .batchWithdraw ids recipient) ∧ 10 < 300)) := by
  have hreached : Reached Sample.site Sample.opened := reached_after Sample.genesis_fresh (by decide)
  have hstored : Sample.opened.world.book.streams.lookup Sample.streamId =
      some (createdStream Sample.site (Sample.terms 500 0) 10) := by decide
  have hok : Sample.batchCall.exec (Sample.signed [3] 300) Sample.opened.world = .ok [] Sample.batched :=
    Outcome.ok_commit (by decide) _
  obtain ⟨hview, hgate⟩ := cliff_gate_iff (Sample.signed [3] 300) hreached (by decide) hstored (by decide)
    (by decide) (by decide)
  exact ⟨hview, hgate _ _ _ (.batchWithdraw _ _ (by simp)) hok⟩

theorem batch_withdraw_jumps_cliff :
    Reached Sample.site Sample.opened ∧
    Sample.opened.world.book.streams.lookup Sample.streamId =
      some (createdStream Sample.site (Sample.terms 500 0) 10) ∧
    300 < (createdStream Sample.site (Sample.terms 500 0) 10).cliffTime ∧
    Storage.getTreasury Sample.opened.world = none ∧
    (Sample.batchCall.exec (Sample.signed [3] 300) Sample.opened.world).value? = some [] ∧
    Sample.opened.world.balances (Sample.party 9) (Sample.party 3) = 1000000 ∧
    Sample.batched.balances (Sample.party 9) (Sample.party 3) = 1007250 ∧
    (Sample.batched.book.streams.lookup Sample.streamId).map Stream.totalWithdrawn = some 7250 :=
  ⟨reached_after Sample.genesis_fresh (by decide), by decide, by decide, by decide, by decide, by decide +kernel,
    by decide +kernel, by decide +kernel⟩

end SoroStream
