import SoroStream.FeeTracking

namespace SoroStream

open Lib Lib.Rollback Lib.Rollback.Prog Lib.Runs Contract

variable {host : Host} {env : Env host} {c c' : Chain} {w w' : World} {id : StreamId} {s : Stream} {u : Unit}
  {claim : Int} {events : List (Event host)} {stray : Address → Int}

def Backs (host : Host) (w w' : World) : Prop := Backed host w → Backed host w'

namespace Backs

theorem refl (w : World) : Backs host w w := fun h => h

theorem trans {w'' : World} (h : Backs host w w') (h' : Backs host w' w'') : Backs host w w'' := fun hw => h' (h hw)

end Backs

theorem Tallied.backs (h : Tallied host stray w w') : Backs host w w' := fun hw => (h hw).1

/-- A fee booked by the hook is in the treasury already; one that the hook fails to
book is there all the same. -/
theorem payClaim_backs {amount : Int} (h : payClaim depositHook s claim env w = .ok amount w') : Backs host w w' := by
  obtain ⟨fee, rfl | ⟨a, hpos, hsend, hhook⟩⟩ := payClaim_cases h
  · exact (claimTransfer_tallied w s _).backs
  · have hpaid : Tallied host 0 w _ := claimTransfer_tallied w s (claim - fee)
    have hclaim := hpaid.backs
    apply hclaim.trans
    by_cases ha : a = host.treasury
    · subst ha
      let v := w.pay (positive (claimTransfer host s (claim - fee)))
      rcases depositHook_cases hhook with ⟨hroom, rfl⟩ | ⟨-, rfl⟩
      · have hbooked : Tallied host 0 v ((v.pay [feeTransfer host s host.treasury fee]).withTracked s.token
            (some (tracked v s.token + fee))) := booked_tallied hpos.le hroom
        exact hbooked.backs
      · have hpayer : ∀ t ∈ [feeTransfer host s host.treasury fee], t.payer ≠ host.treasury :=
          fun t ht => List.mem_singleton.mp ht ▸ contract_ne_treasury
        have hamount : ∀ t ∈ [feeTransfer host s host.treasury fee], 0 ≤ t.amount :=
          fun t ht => List.mem_singleton.mp ht ▸ hpos.le
        have hpaid : Moved host [feeTransfer host s host.treasury fee] v
            (v.pay [feeTransfer host s host.treasury fee]) :=
          Moved.pay v _
        have htally : Tallied host _ v (v.pay [feeTransfer host s host.treasury fee]) :=
          .of_transfers rfl hpaid.log hpaid.vault hpayer hamount
        exact htally.backs
    · exact ((feeTransfer_tallied ha hpos.le).before (depositHook_elsewhere ha hhook)).backs

theorem batchWithdrawItem_backs {recipient : Address} (h : batchWithdrawItem recipient id env w = .ok claim w') :
    Backs host w w' := by
  obtain ⟨s, w₁, -, -, -, -, -, hblock, hsettle⟩ := batchWithdrawItem_parts.mp h
  obtain ⟨out, us, hout, rfl⟩ := settleStream_ok.mp hsettle
  have hclaim : Backs host w w₁ := by
    obtain ⟨-, ⟨-, -, amount, v, hpay, hrest⟩ | ⟨-, rfl⟩⟩ := claimBlock_cases hblock
    · obtain ⟨-, rfl⟩ := pure_ok.mp hrest
      exact payClaim_backs hpay
    · exact .refl w₁
  exact hclaim.trans (paid_tallied rfl rfl rfl hout.plain).backs

theorem streamCall_backs {call : StreamCall} {ids : List StreamId} (h : call.exec env w = .ok ids w') :
    Backs host w w' := by
  by_cases hbatch : ∃ ids recipient, call = .batchWithdraw ids recipient
  · obtain ⟨ids, recipient, rfl⟩ := hbatch
    obtain ⟨_, _, h, -, rfl⟩ := bind_ok.mp h
    obtain ⟨-, -, hitems⟩ := batchWithdraw_ok h
    apply (awake_tallied w env.now).backs.trans
    exact each_rel (Backs host) .refl .trans (fun _ _ _ _ _ hitem => batchWithdrawItem_backs hitem) hitems
  · exact (streamCall_tallied (fun ids recipient heq => absurd ⟨ids, recipient, heq⟩ hbatch) h).backs

/-- A deposit the books accept although the tokens are not there, or one that takes
more off the books than is on them. -/
def Chain.Unfunded (c : Chain) : Event host → Prop
  | .treasury _ (.deposit token amount) =>
      let after := tracked c.world token + amount.val
      (i128Min ≤ after ∧ after ≤ i128Max) ∧ ¬(0 ≤ after ∧ after ≤ c.world.balances token host.treasury)
  | _ => False

instance : ∀ (c : Chain) (e : Event host), Decidable (c.Unfunded e)
  | _, .treasury _ (.deposit _ _) => inferInstanceAs (Decidable (_ ∧ _))
  | _, .treasury _ (.initializeTreasury _) => .isFalse fun h => h
  | _, .treasury _ (.setAdmin _) => .isFalse fun h => h
  | _, .treasury _ (.withdrawTreasury _ _ _) => .isFalse fun h => h
  | _, .treasury _ (.withdrawAll _ _) => .isFalse fun h => h
  | _, .treasury _ (.setLpPool _) => .isFalse fun h => h
  | _, .treasury _ (.setTreasurySplit _) => .isFalse fun h => h
  | _, .treasury _ (.distribute _ _) => .isFalse fun h => h
  | _, .call _ _ => .isFalse fun h => h
  | _, .tokens _ _ => .isFalse fun h => h

theorem deposit_backs {token : Address} {amount : Int}
    (hfunded : 0 ≤ tracked w token + amount ∧ tracked w token + amount ≤ w.balances token host.treasury)
    (h : TreasuryContract.deposit token amount env w = .ok u w') : Backs host w w' := by
  obtain ⟨hrange, rfl⟩ := deposit_ok.mp h
  intro hw
  refine ⟨?_, ?_, ?_, hw.share⟩
  · intro other
    rw [withTracked_tracked]
    split
    · exact hfunded.1
    · exact hw.nonneg other
  · intro other
    rw [withTracked_tracked]
    split
    · next heq => exact heq ▸ hfunded.2
    · exact hw.covered other
  · intro other
    rw [withTracked_tracked]
    split
    · exact hrange.2
    · exact hw.bounded other

theorem commit_backs {α : Type} {x : Contract host α} (h : ∀ v w', x env w = .ok v w' → Backs host w w') :
    Backs host w ((x env w).commit w) := by
  cases hx : x env w with
  | ok v t => exact h v t hx
  | err e t => exact .refl w
  | trap => exact .refl w

theorem step_backs {e : Event host} (h : May c e) (hfunded : ¬c.Unfunded e) :
    Backs host c.world (c.step e).world := by
  cases e with
  | call env call =>
      cases call with
      | stream call => exact commit_backs fun ids w' hx => streamCall_backs hx
      | config call =>
          exact (Keeps.commit (keeps_bind (configCall_tallied call) fun _ => keeps_pure) c.world).backs
      | view v =>
          have hkeep : Keeps env (Tallied host 0) v.exec := fun w _ w' hv => view_silent v hv ▸ Tallied.refl w
          exact (Keeps.commit (keeps_bind hkeep fun _ => keeps_pure) c.world).backs
  | treasury env call =>
      by_cases hdeposit : ∃ token amount, call = .deposit token amount
      · obtain ⟨token, amount, rfl⟩ := hdeposit
        apply commit_backs
        intro _ w' hx
        refine deposit_backs ?_ hx
        by_contra hno
        exact hfunded ⟨(deposit_ok.mp hx).1, hno⟩
      · have hother : ∀ token amount, call ≠ .deposit token amount :=
          fun token amount heq => hdeposit ⟨token, amount, heq⟩
        exact (Keeps.commit (treasuryCall_releases hother) c.world).tallied.backs
  | tokens time b =>
      have htally : Tallied host 0 c.world (c.step (.tokens time b : Event host)).world :=
        .of_quiet rfl rfl fun token => (h.2 token).2
      exact htally.backs

theorem unfunded_breaks {e : Event host} (h : c.Unfunded e) :
    ∃ token, ¬(0 ≤ tracked (c.step e).world token ∧
      tracked (c.step e).world token ≤ (c.step e).world.balances token host.treasury) := by
  cases e with
  | call env call => exact h.elim
  | tokens time b => exact h.elim
  | treasury env call =>
      cases call with
      | deposit token amount =>
          obtain ⟨hrange, hbroken⟩ := h
          have hok : TreasuryContract.deposit token amount.val env c.world =
              .ok () (c.world.withTracked token (some (tracked c.world token + amount.val))) :=
            deposit_ok.mpr ⟨hrange, rfl⟩
          have hstep : (c.step (.treasury env (.deposit token amount))).world =
              c.world.withTracked token (some (tracked c.world token + amount.val)) := by
            simp only [Chain.step, TreasuryContract.Call.exec, hok, Outcome.commit_ok]
          refine ⟨token, ?_⟩
          rw [hstep, withTracked_tracked, if_pos rfl]
          exact hbroken
      | _ => exact h.elim

theorem withdrawAll_available (h : Backed host w) {invoker : Option Address} {token destination : Address}
    (hadmin : AdminCalls env w invoker)
    (haccepts : ∀ b t, t.payer = host.treasury → env.accepts b t = true) :
    ∃ w', TreasuryContract.withdrawAll invoker token destination env w = .ok (tracked w token) w' := by
  by_cases hpos : 0 < tracked w token
  · have hpay : Payable env w (TreasuryContract.payout host token destination (tracked w token)) :=
      ⟨hpos.le, h.covered token, haccepts _ _ rfl⟩
    exact ⟨_, withdrawAll_ok.mpr ⟨hadmin, rfl, .inl ⟨hpos, hpay, rfl⟩⟩⟩
  · exact ⟨w, withdrawAll_ok.mpr ⟨hadmin, rfl, .inr ⟨hpos, rfl⟩⟩⟩

theorem distribute_available (h : Backed host w) {invoker : Option Address} {token destination : Address}
    (hadmin : AdminCalls env w invoker)
    (haccepts : ∀ b t, t.payer = host.treasury → env.accepts b t = true)
    (hproduct : tracked w token * (TreasuryContract.readTreasurySplitBps w.treasury : Int) ≤ i128Max)
    (hpool : 0 < lpShare w token → w.treasury.lpPool.isSome) :
    ∃ w', TreasuryContract.distribute invoker token destination env w =
      .ok (treasuryShare w token, lpShare w token) w' := by
  obtain ⟨hshare, hlp⟩ := h.sound.share_bounds token
  have hmin : i128Min ≤ 0 := by decide
  have hsum : treasuryShare w token + lpShare w token = tracked w token := add_sub_cancel _ _
  have hbalance := h.covered token
  by_cases hzero : tracked w token = 0
  · have hnone : (treasuryShare w token, lpShare w token) = (0, 0) := by
      simp [lpShare, treasuryShare, hzero]
    exact ⟨w, distribute_ok.mpr ⟨hadmin, .inl ⟨hzero, hnone.symm, rfl⟩⟩⟩
  have hgrow : 0 ≤ tracked w token * (TreasuryContract.readTreasurySplitBps w.treasury : Int) :=
    Int.mul_nonneg (h.nonneg token) (Int.natCast_nonneg _)
  have hmul : (checkedMulI128 (tracked w token) (TreasuryContract.readTreasurySplitBps w.treasury)).isSome := by
    rw [checkedMulI128, Checked.inRange_of_mem (hmin.trans hgrow) hproduct]
    rfl
  have hsub : (checkedSubI128 (tracked w token) (treasuryShare w token)).isSome := by
    have hroom : i128Min ≤ tracked w token - treasuryShare w token := hmin.trans hlp
    rw [checkedSubI128, Checked.inRange_of_mem hroom ((sub_le_self _ hshare).trans (h.bounded token))]
    rfl
  have hfirst : 0 < treasuryShare w token →
      Payable env (w.withTracked token none)
        (TreasuryContract.payout host token destination (treasuryShare w token)) := by
    intro hpos
    refine ⟨hpos.le, ?_, haccepts _ _ rfl⟩
    change _ ≤ w.balances token host.treasury
    change treasuryShare w token ≤ _
    omega
  have hleft : lpShare w token ≤ (w.shared host token destination).balances token host.treasury := by
    have hback : 0 ≤ received host.treasury token
        (positive (TreasuryContract.payout host token destination (treasuryShare w token))) :=
      received_nonneg fun t ht => amount_nonneg_of_mem_positive ht
    rw [World.shared, pay_balances, treasuryShare_spent h.sound]
    change _ ≤ w.balances token host.treasury - _ + _
    omega
  by_cases hpos : 0 < lpShare w token
  · obtain ⟨pool, hpool⟩ := Option.isSome_iff_exists.mp (hpool hpos)
    have hsecond : Payable env (w.shared host token destination)
        (TreasuryContract.payout host token pool (lpShare w token)) := ⟨hlp, hleft, haccepts _ _ rfl⟩
    exact ⟨_, distribute_ok.mpr ⟨hadmin, .inr ⟨hzero, hmul, hsub, hfirst, rfl,
      .inl ⟨hpos, pool, hpool, hsecond, rfl⟩⟩⟩⟩
  · exact ⟨_, distribute_ok.mpr ⟨hadmin, .inr ⟨hzero, hmul, hsub, hfirst, rfl, .inr ⟨hpos, rfl⟩⟩⟩⟩

structure NewTreasury (host : Host) (w : World) : Prop where
  cells : w.treasury = ⟨none, none, none, fun _ => none⟩
  vault : ∀ token, 0 ≤ w.balances token host.treasury

theorem NewTreasury.backed (h : NewTreasury host w) : Backed host w := by
  have hbooks : ∀ token, tracked w token = 0 := by
    intro token
    rw [tracked, h.cells]
    rfl
  refine ⟨?_, ?_, ?_, ?_⟩
  · intro token
    rw [hbooks]
  · intro token
    rw [hbooks]
    exact h.vault token
  · intro token
    rw [hbooks]
    decide
  · rw [h.cells]
    decide

/-- No more is on the books than is there, and nothing on them is missing when the
admin takes it out: if the token moves it, `withdraw_all` returns, and so does
`distribute`, if its share can be computed and there is a pool for the rest. -/
structure TreasuryBacked (host : Host) (w : World) : Prop where
  nonneg : ∀ token, 0 ≤ tracked w token
  covered : ∀ token, tracked w token ≤ w.balances token host.treasury
  all : ∀ (env : Env host) (invoker : Option Address) (token destination : Address), AdminCalls env w invoker →
    (∀ b t, t.payer = host.treasury → env.accepts b t = true) →
    ∃ w', TreasuryContract.withdrawAll invoker token destination env w = .ok (tracked w token) w'
  shares : ∀ (env : Env host) (invoker : Option Address) (token destination : Address), AdminCalls env w invoker →
    (∀ b t, t.payer = host.treasury → env.accepts b t = true) →
    tracked w token * (TreasuryContract.readTreasurySplitBps w.treasury : Int) ≤ i128Max →
    (0 < lpShare w token → w.treasury.lpPool.isSome) →
    ∃ w', TreasuryContract.distribute invoker token destination env w =
      .ok (treasuryShare w token, lpShare w token) w'

theorem Backed.treasuryBacked (h : Backed host w) : TreasuryBacked host w :=
  ⟨h.nonneg, h.covered, fun _ _ _ _ hadmin haccepts => withdrawAll_available h hadmin haccepts,
    fun _ _ _ _ hadmin haccepts hproduct hpool => distribute_available h hadmin haccepts hproduct hpool⟩

/-- The treasury is backed in every state of a run exactly when nobody booked a deposit
that was not there. -/
theorem treasury_backed_iff (hnew : NewTreasury host c.world) (hrun : SystemRun host c events c') :
    (∀ es, es <+: events → TreasuryBacked host (c.after es).world) ↔
      Throughout Chain.step (fun c e => ¬Chain.Unfunded c e) c events := by
  refine hrun.always_iff (fun c => Backed host c.world) hnew.backed ?_ (fun c hc => hc.treasuryBacked) ?_
  · intro c e hc hmay hfunded
    exact step_backs hmay hfunded hc
  · intro c e _ _ hbad hbacked
    obtain ⟨token, hbroken⟩ := unfunded_breaks (not_not.mp hbad)
    exact hbroken ⟨hbacked.nonneg token, hbacked.covered token⟩

namespace Sample

theorem genesis_newTreasury : NewTreasury site genesis.world :=
  ⟨rfl, fun _ => by simp [genesis, site, party]⟩

def phantom : List (Event site) :=
  [.treasury (signed [7] 5) (.initializeTreasury (party 7)),
    .treasury (signed [5] 6) (.deposit (party 9) (terms 0 0).amount)]

end Sample

theorem sample_treasury_backed : TreasuryBacked Sample.site (Sample.genesis.after Sample.batchFees).world :=
  (treasury_backed_iff Sample.genesis_newTreasury (run_of_inOrder (by decide))).mpr (by decide +kernel) _
    List.prefix_rfl

/-- A deposit of tokens that were never sent puts them on the books, and
`withdraw_all` fails for lack of tokens. -/
theorem phantom_deposit :
    NewTreasury Sample.site Sample.genesis.world ∧
    SystemRun Sample.site Sample.genesis Sample.phantom (Sample.genesis.after Sample.phantom) ∧
    tracked (Sample.genesis.after Sample.phantom).world (Sample.party 9) = 100000 ∧
    (Sample.genesis.after Sample.phantom).world.balances (Sample.party 9) Sample.site.treasury = 0 ∧
    (TreasuryContract.withdrawAll none (Sample.party 9) (Sample.party 7) (Sample.signed [7] 7)
      (Sample.genesis.after Sample.phantom).world).value? = none ∧
    ¬TreasuryBacked Sample.site (Sample.genesis.after Sample.phantom).world := by
  have hbooks : tracked (Sample.genesis.after Sample.phantom).world (Sample.party 9) = 100000 := by decide +kernel
  have hthere : (Sample.genesis.after Sample.phantom).world.balances (Sample.party 9) Sample.site.treasury = 0 := by
    decide +kernel
  refine ⟨Sample.genesis_newTreasury, run_of_inOrder (by decide), hbooks, hthere, by decide +kernel, ?_⟩
  intro h
  have hle := h.covered (Sample.party 9)
  rw [hbooks, hthere] at hle
  exact absurd hle (by decide)

end SoroStream
