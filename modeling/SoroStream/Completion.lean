import SoroStream.Flows

namespace SoroStream

open Lib Lib.Rollback Lib.Rollback.Prog Lib.Runs Contract

variable {host : Host} {env : Env host} {w w' v : World} {c : Chain} {id j : StreamId} {s : Stream} {claim : Int}
  {ts us : List Transfer}

inductive WithdrawCall : StreamCall → Prop
  | withdraw (streamId : StreamId) (recipient : Address) : WithdrawCall (.withdraw streamId recipient)
  | batchWithdraw (streamIds : List StreamId) (recipient : Address) : WithdrawCall (.batchWithdraw streamIds recipient)

def Over (w : World) (id : StreamId) : Prop := ∀ q, w.book.streams.lookup id = some q → q.status = .completed

/-- What leaves the contract when a stream completes: the claim less a fee that nobody
takes, and the dust. -/
def completionOutflow (host : Host) (w : World) (s : Stream) : Int :=
  let claim := s.flowRate * ((s.endTime : Int) - s.lastWithdrawTime)
  claim - retainedFee host w s claim + (s.deposit - s.flowRate * ((s.endTime : Int) - s.startTime))

theorem dust_outflow {r : Stream} (hsender : r.sender ≠ host.contract) (hdust : 0 ≤ dustOf r) :
    outflow host r.token (positive (dustTransfer host r)) = dustOf r :=
  outflow_paid rfl rfl hsender hdust

section

variable {single : Bool} {w₁ : World} {out : Option Stream}

/-- A turn that ends a stream pays out the claim and the dust. -/
theorem Turned.completes (h : Turned env w v w' id s claim single w₁ out us) (hfee : FeeBounded w.config)
    (hend : s.endTime ≤ env.now) (hover : Over w' id) :
    outflow host s.token (claimedTransfers host w s claim ++ us) = completionOutflow host w s := by
  have hclaimed := claimed_outflow hfee h.claim_nonneg h.recipient
  have hdue := h.claim_due hend
  have hdust := h.dust_eq
  have hfunded := h.sound.funded
  have hout : outflow host s.token (positive (dustTransfer host (s.checkpoint claim env.now))) =
      dustOf (s.checkpoint claim env.now) := dust_outflow (r := s.checkpoint claim env.now) h.sender (by omega)
  have hset := h.settled
  have hlookup := h.lookup
  rw [outflow_append, hclaimed, completionOutflow, ← hdue]
  cases hset with
  | running hbefore => exact absurd hend (not_le.mpr hbefore)
  | renewed =>
      have hstatus : (s.checkpoint claim env.now).renewed.status = .completed := hover _ hlookup
      exact absurd (h.active.symm.trans hstatus) (by simp)
  | lapsed | finished => rw [hout, hdust]

end

def Closing (host : Host) (w v : World) (id : StreamId) (s : Stream) : Prop :=
  Over v id ∧ ∃ ts, v.log = w.log ++ ts ∧ outflow host s.token (onAccount id ts) = completionOutflow host w s

theorem Idle.onAccount_eq (h : Idle id w v) : ∃ ts, v.log = w.log ++ ts ∧ onAccount id ts = [] := by
  obtain ⟨ts, hlog, hcause⟩ := h.log
  exact ⟨ts, hlog, onAccount_others hcause⟩

theorem withdraw_closing {recipient : Address} (hw : Accounts env.now w.book.streams)
    (hsenders : SendersOutside host w.book.streams) (hfee : FeeBounded w.config)
    (hs : w.book.streams.lookup id = some s) (hactive : s.status = .active) (hend : s.endTime ≤ env.now)
    (hover : Over w' id) (h : withdraw j recipient env w = .ok () w') : Closing host w w' id s := by
  by_cases hj : id = j
  · subst hj
    obtain ⟨r, claim, w₁, out, us, ht⟩ := withdraw_turned hw hsenders h
    obtain rfl := Option.some.inj (hs.symm.trans ht.stored)
    refine ⟨hover, _, ht.log, ?_⟩
    rw [ht.onAccount_eq]
    exact ht.completes hfee hend hover
  · obtain ⟨-, r, claim, w₁, out, us, -, hwd, rfl⟩ := withdraw_ok h
    have hidle := withdrawal_idle hwd (hw j r hwd.stored).1 hj
    have hstatus := hover s (hidle.record.trans hs)
    exact absurd (hactive.symm.trans hstatus) (by simp)

/-- How far a batch that starts in `w` has come with one stream: it renews the stream,
it has not come to it, or it has closed it. -/
def Progress (host : Host) (w v : World) (id : StreamId) (s : Stream) : Prop :=
  (∃ q, v.book.streams.lookup id = some q ∧ q.status = .active ∧ q.autoRenew = true) ∨
    s.autoRenew = false ∧ Idle id w v ∨ Closing host w v id s ∧ v.book.streams.lookup id = none

theorem turn_progress {w₁ : World} {out : Option Stream} {r : Stream} (hfee : FeeBounded w.config)
    (hs : w.book.streams.lookup id = some s) (hend : s.endTime ≤ env.now)
    (ht : Turned env w v w' id r claim false w₁ out us) (h : Progress host w v id s) : Progress host w w' id s := by
  have hlookup := ht.lookup
  rcases h with ⟨q, hq, hactive, hauto⟩ | ⟨hauto, hidle⟩ | ⟨-, hnone⟩
  · obtain rfl := Option.some.inj (hq.symm.trans ht.stored)
    have hset := ht.settled
    cases hset with
    | running | renewed => exact .inl ⟨_, hlookup, hactive, hauto⟩
    | lapsed _ _ _ hlooks => exact absurd hlooks (by simp)
    | finished _ _ hauto' => exact absurd (hauto.symm.trans hauto') (by simp)
  · obtain rfl := Option.some.inj (ht.stored.symm.trans (hidle.record.trans hs))
    have hout : out = none := by
      have hset := ht.settled
      cases hset with
      | running hbefore => exact absurd hend (not_le.mpr hbefore)
      | renewed _ _ hauto' => exact absurd (hauto'.symm.trans hauto) (by simp)
      | lapsed _ _ _ hlooks => exact absurd hlooks (by simp)
      | finished => rfl
    rw [hout] at hlookup
    have hover : Over w' id := fun q hq => absurd (hq.symm.trans hlookup) (by simp)
    obtain ⟨before, hbefore, hnone⟩ := hidle.onAccount_eq
    refine .inr (.inr ⟨⟨hover, before ++ (claimedTransfers host w r claim ++ us), ?_, ?_⟩, hlookup⟩)
    · rw [ht.log, hbefore, List.append_assoc]
    · rw [onAccount_append, hnone, List.nil_append, ht.onAccount_eq]
      exact ht.completes hfee hend hover
  · exact absurd (hnone.symm.trans ht.stored) (by simp)

theorem Progress.idle (h : Progress host w v id s) (hidle : Idle id v w') : Progress host w w' id s := by
  rcases h with ⟨q, hq, hauto⟩ | ⟨hauto, hbefore⟩ | ⟨⟨hover, ts, hlog, hout⟩, hnone⟩
  · exact .inl ⟨q, hidle.record.trans hq, hauto⟩
  · exact .inr (.inl ⟨hauto, hbefore.trans hidle⟩)
  · obtain ⟨us, hus, hothers⟩ := hidle.onAccount_eq
    refine .inr (.inr ⟨⟨?_, ts ++ us, ?_, ?_⟩, hidle.record.trans hnone⟩)
    · intro q hq
      exact hover q (hidle.record.symm.trans hq)
    · rw [hus, hlog, List.append_assoc]
    · rw [onAccount_append, hothers, List.append_nil, hout]

theorem batchWithdraw_closing {ids : List StreamId} {recipient : Address} {claims : List Int}
    (hw : Accounts env.now w.book.streams) (hsenders : SendersOutside host w.book.streams) (hfee : FeeBounded w.config)
    (hs : w.book.streams.lookup id = some s) (hactive : s.status = .active) (hend : s.endTime ≤ env.now)
    (hover : Over w' id) (h : batchWithdraw ids recipient env w = .ok claims w') : Closing host w w' id s := by
  have hstart : Progress host w (w.awake env.now) id s := by
    cases hauto : s.autoRenew with
    | true => exact .inl ⟨s, hs, hactive, hauto⟩
    | false => exact .inr (.inl ⟨hauto, Idle.of_awake (Idle.refl (w.awake env.now))⟩)
  have hprogress : Progress host w w' id s := by
    refine batchWithdraw_turns id (fun v => Progress host w v id s) ?_ ?_ hw hsenders hstart h
    · intro v v' hidle hv
      exact hv.idle hidle
    · intro v v' r claim w₁ out us hturned hv
      exact turn_progress hfee hs hend hturned hv
  rcases hprogress with ⟨q, hq, hstatus, -⟩ | ⟨-, hidle⟩ | ⟨hclosing, -⟩
  · exact absurd ((hover q hq).symm.trans hstatus) (by simp)
  · exact absurd ((hover s (hidle.record.trans hs)).symm.trans hactive) (by simp)
  · exact hclosing

/-- When a withdrawal completes a stream, all that was held for it leaves the contract
exactly when nothing of it was forfeited and no fee of it goes to the contract itself. -/
theorem completion_pays_out_iff (env : Env host) (h : Reached host c) (hnow : c.now ≤ env.now)
    (hs : c.world.book.streams.lookup id = some s) (hactive : s.status = .active) (hend : s.endTime ≤ env.now)
    (hfee : Storage.getProtocolFee c.world = 0 ∨ (Storage.getTreasury c.world).isSome) {call : StreamCall}
    {made : List StreamId} (hcall : WithdrawCall call) (hok : call.exec env c.world = .ok made w')
    (hover : Over w' id) :
    ∃ ts, w'.log = c.world.log ++ ts ∧
      (outflow host s.token (onAccount id ts) = s.deposit - s.totalWithdrawn ↔
        s.totalWithdrawn = s.flowRate * ((s.lastWithdrawTime : Int) - s.startTime) ∧
        (Storage.getTreasury c.world = some host.contract → Storage.isFeeExempt s.recipient c.world = true ∨
          s.flowRate * ((s.endTime : Int) - s.lastWithdrawTime) * Storage.getProtocolFee c.world < 10000)) := by
  have hsolvent := aside_solvent hnow (.refl _) (reached_solvent h)
  have hsenders := reached_senders h
  have hsound := (hsolvent.accounts id s hs).2
  have hclosing : Closing host c.world w' id s := by
    cases hcall with
    | withdraw j recipient =>
        obtain ⟨_, _, hok, -, rfl⟩ := bind_ok.mp hok
        exact withdraw_closing hsolvent.accounts hsenders hsolvent.fees hs hactive hend hover hok
    | batchWithdraw ids recipient =>
        obtain ⟨_, _, hok, -, rfl⟩ := bind_ok.mp hok
        exact batchWithdraw_closing hsolvent.accounts hsenders hsolvent.fees hs hactive hend hover hok
  obtain ⟨-, ts, hlog, hout⟩ := hclosing
  refine ⟨ts, hlog, ?_⟩
  have hdue : 0 ≤ s.flowRate * ((s.endTime : Int) - s.lastWithdrawTime) :=
    Int.mul_nonneg (by have := hsound.rate; omega) (by have := hsound.stopped; omega)
  have hretained : 0 ≤ retainedFee host c.world s (s.flowRate * ((s.endTime : Int) - s.lastWithdrawTime)) :=
    retainedFee_nonneg hsolvent.fees hdue
  have hcounted := hsound.withdrawn_le
  have hsum : completionOutflow host c.world s = s.deposit - s.flowRate * ((s.lastWithdrawTime : Int) - s.startTime) -
      retainedFee host c.world s (s.flowRate * ((s.endTime : Int) - s.lastWithdrawTime)) := by
    simp only [completionOutflow]
    ring
  rw [hout, hsum, ← retainedFee_eq_zero_iff_self hsolvent.fees hdue hfee]
  omega

namespace Sample

def finished (time : U64) (c : Chain) : World :=
  ((StreamCall.withdraw streamId (party 3)).exec (signed [3] time) c.world).commit c.world

def forfeiting : Chain := genesis.after [opening 500 0, call [3] 300 (.withdraw streamId (party 3))]

end Sample

theorem sample_completion_pays_out : ∃ ts,
    (Sample.finished 5000 (Sample.genesis.after [Sample.opening 0 0])).log =
      (Sample.genesis.after [Sample.opening 0 0]).world.log ++ ts ∧
    (outflow Sample.site (Sample.party 9) (onAccount Sample.streamId ts) = 100000 - 0 ↔
      (0 : Int) = 25 * (((10 : Nat) : Int) - (10 : Nat)) ∧
      (Storage.getTreasury (Sample.genesis.after [Sample.opening 0 0]).world = some (Sample.party 0) →
        Storage.isFeeExempt (Sample.party 3) (Sample.genesis.after [Sample.opening 0 0]).world = true ∨
          25 * (((4010 : Nat) : Int) - (10 : Nat)) *
            Storage.getProtocolFee (Sample.genesis.after [Sample.opening 0 0]).world < 10000)) := by
  have hreached : Reached Sample.site (Sample.genesis.after [Sample.opening 0 0]) :=
    reached_after Sample.genesis_fresh (by decide)
  have hstored : (Sample.genesis.after [Sample.opening 0 0]).world.book.streams.lookup Sample.streamId =
      some (createdStream Sample.site (Sample.terms 0 0) 10) := by decide
  have hok : (StreamCall.withdraw Sample.streamId (Sample.party 3)).exec (Sample.signed [3] 5000)
      (Sample.genesis.after [Sample.opening 0 0]).world =
      .ok [] (Sample.finished 5000 (Sample.genesis.after [Sample.opening 0 0])) :=
    Outcome.ok_commit (by decide +kernel) _
  have hgone : (Sample.finished 5000 (Sample.genesis.after [Sample.opening 0 0])).book.streams.lookup
      Sample.streamId = none := by decide +kernel
  exact completion_pays_out_iff (Sample.signed [3] 5000) hreached (by decide) hstored rfl (by decide)
    (.inl (by decide)) (.withdraw _ _) hok fun q hq => absurd (hq.symm.trans hgone) (by simp)

/-- What the withdrawal before the cliff skipped, 7250 of 100000, is still in the contract
when the record is gone. -/
theorem completion_leaves_forfeit :
    Reached Sample.site Sample.forfeiting ∧
    Storage.getProtocolFee Sample.forfeiting.world = 0 ∧
    (Sample.forfeiting.world.book.streams.lookup Sample.streamId).map (fun s =>
      (s.status, s.endTime, s.deposit - s.totalWithdrawn)) = some (.active, 4010, 100000) ∧
    ((StreamCall.withdraw Sample.streamId (Sample.party 3)).exec (Sample.signed [3] 5000)
      Sample.forfeiting.world).value? = some [] ∧
    (Sample.finished 5000 Sample.forfeiting).book.streams.lookup Sample.streamId = none ∧
    Sample.forfeiting.world.balances (Sample.party 9) (Sample.party 0) = 100000 ∧
    (Sample.finished 5000 Sample.forfeiting).balances (Sample.party 9) (Sample.party 0) = 7250 :=
  ⟨reached_after Sample.genesis_fresh (by decide), by decide +kernel, by decide +kernel, by decide +kernel,
    by decide +kernel, by decide +kernel, by decide +kernel⟩

end SoroStream
