import SoroStream.Lib.Avoids
import SoroStream.Preview
import SoroStream.Vacancy

namespace SoroStream

open Lib Lib.Rollback Lib.Rollback.Prog Contract

variable {host : Host} {env : Env host} {w w' : World} {c : Chain} {id : StreamId} {s s' : Stream} {claim : Int}
  {recipient : Address}

/-- The claim can be counted against the deposit, and its fee can be computed. -/
def Chargeable (w : World) (s : Stream) (claim : Int) : Prop :=
  (∃ total, checkedAddI128 s.totalWithdrawn claim = some total ∧ total ≤ s.deposit) ∧
    (checkedMulI128 claim (Storage.getProtocolFee w)).isSome

structure Computable (w : World) (s : Stream) (t : Nat) : Prop where
  claimable : ∃ claim, claimableAt s t = some claim ∧ Chargeable w s claim
  earned : ∃ claim, earnedAt s t = some claim ∧ Chargeable w s claim
  span : s.startTime ≤ s.endTime

/-- No deposit is so large that its product with the highest fee rate leaves the i128. -/
def Modest (w : World) : Prop := ∀ id s, w.book.streams.lookup id = some s → s.deposit ≤ i128Max / 10000

theorem chargeable {now : Nat} (hsound : Sound now s) (hfee : FeeBounded w.config)
    (hsmall : s.deposit ≤ i128Max / 10000) (hpos : 0 ≤ claim) (hle : claim ≤ s.remaining) : Chargeable w s claim := by
  have hwithdrawn := hsound.withdrawn_nonneg
  have hmax := hsound.deposit_max
  have hmin : i128Min ≤ 0 := by decide
  have hcap : i128Max / 10000 * 10000 ≤ i128Max := by decide
  rw [Stream.remaining] at hle
  refine ⟨⟨_, Checked.inRange_of_mem (by omega) (by omega), by omega⟩, ?_⟩
  have hrate : (Storage.getProtocolFee w : Int) ≤ 10000 := by exact_mod_cast hfee.rate_le
  have hproduct : claim * (Storage.getProtocolFee w : Int) ≤ i128Max := by
    calc claim * (Storage.getProtocolFee w : Int)
        ≤ claim * 10000 := Int.mul_le_mul_of_nonneg_left hrate hpos
      _ ≤ i128Max / 10000 * 10000 := by omega
      _ ≤ i128Max := hcap
  have hnonneg : 0 ≤ claim * (Storage.getProtocolFee w : Int) := Int.mul_nonneg hpos (Int.natCast_nonneg _)
  have hsome : checkedMulI128 claim (Storage.getProtocolFee w) = some (claim * Storage.getProtocolFee w) :=
    Checked.inRange_of_mem (hmin.trans hnonneg) hproduct
  rw [hsome]
  rfl

theorem Chargeable.fits (h : Chargeable w s claim) (recipient : Address) : FeeFits w recipient claim := by
  intro _
  obtain ⟨product, hproduct⟩ := Option.isSome_iff_exists.mp h.2
  exact (Checked.inRange_eq_some.mp hproduct).1.2

section

variable {bad : Option StreamError → Prop}

theorem requireAuth_avoids {a : Address} (h : bad none → env.auths a = true) : Avoids bad env w (requireAuth a) := by
  refine avoids_read_bind (avoids_haltIf ?_)
  intro hdenied hnone
  exact Bool.noConfusion ((h hnone).symm.trans hdenied)

theorem transfer_avoids {t : Transfer} (h : bad none → Payable env w t) : Avoids bad env w (transfer t) := by
  refine avoids_read_bind (avoids_bind (avoids_haltIf ?_) fun _ _ _ => avoids_update)
  intro hrefused hnone
  exact of_decide_eq_false hrefused (h hnone)

theorem transferPositive_avoids {t : Transfer} (h : bad none → 0 < t.amount → Payable env w t) :
    Avoids bad env w (transferPositive t) :=
  avoids_ite (fun hpos => transfer_avoids fun hnone => h hnone hpos) fun _ => avoids_pure

theorem saveStream_avoids : Avoids bad env w (Storage.saveStream s) := avoids_update

theorem closeStream_avoids : Avoids bad env w (closeStream id s) :=
  avoids_bind avoids_update fun _ _ _ => avoids_bind avoids_update fun _ _ _ => avoids_update

theorem payClaim_avoids {hook : FeeHook host} (hhook : ∀ a token fee w, Avoids bad env w (hook a token fee))
    (hfee : FeeBounded w.config) (hpos : 0 ≤ claim) (hfits : FeeFits w s.recipient claim)
    (hpot : bad none → Honours env ∧ claim ≤ w.balances s.token host.contract) :
    Avoids bad env w (payClaim hook s claim) := by
  have hamount : feeAmount s.recipient claim env w = .ok (feeOf w s.recipient claim) w := feeAmount_available hpos hfits
  obtain ⟨hnonneg, hle⟩ := feeOf_bounds hfee hpos s.recipient
  refine avoids_bind (avoids_of_ok hamount) ?_
  intro fee v hv
  obtain ⟨rfl, rfl⟩ := Outcome.ok.inj (hamount.symm.trans hv)
  refine avoids_bind (transferPositive_avoids ?_) ?_
  · intro hnone hdue
    obtain ⟨htoken, hheld⟩ := hpot hnone
    have hcovered : claim - feeOf w s.recipient claim ≤ w.balances s.token host.contract := by omega
    exact ⟨hdue.le, hcovered, htoken _ _ rfl hdue.le hcovered⟩
  · intro _ v hv
    obtain ⟨-, rfl⟩ := transferPositive_ok.mp hv
    refine avoids_ite (fun hdue => avoids_read_bind ?_) fun _ => avoids_pure
    cases Storage.getTreasury _ with
    | none => exact avoids_pure
    | some treasury =>
        refine avoids_bind (transfer_avoids ?_) fun _ _ _ =>
          avoids_bind (hhook treasury s.token _ _) fun _ _ _ => avoids_pure
        intro hnone
        obtain ⟨htoken, hheld⟩ := hpot hnone
        have hrest := fee_held (s := s) hfee hpos hheld
        exact ⟨hdue.le, hrest, htoken _ _ rfl hdue.le hrest⟩

theorem claimBlock_avoids {hook : FeeHook host} {after : Int → Contract host Unit}
    (hhook : ∀ a token fee w, Avoids bad env w (hook a token fee)) (hafter : ∀ a w, Avoids bad env w (after a))
    (hfee : FeeBounded w.config) (hpos : 0 ≤ claim) (hcharge : Chargeable w s claim)
    (hpot : bad none → Honours env ∧ claim ≤ w.balances s.token host.contract) :
    Avoids bad env w (claimBlock hook after s claim) := by
  obtain ⟨⟨total, htotal, hle⟩, -⟩ := id hcharge
  refine avoids_ite (fun _ => ?_) fun _ => avoids_pure
  refine avoids_okOr_bind (fun hnone => ?_) fun counted hcounted => ?_
  · exact absurd (hnone.symm.trans htotal) (Option.some_ne_none total).symm
  obtain rfl := Option.some.inj (htotal.symm.trans hcounted)
  refine avoids_failIf_bind (fun hover => absurd hover (not_lt.mpr hle)) fun _ => ?_
  refine avoids_bind (payClaim_avoids hhook hfee hpos (hcharge.fits s.recipient) hpot) fun amount v _ => ?_
  exact avoids_bind (hafter amount v) fun _ _ _ => avoids_pure

/-- The only trap of a settlement is a sender who does not pay for the renewal. -/
theorem settleStream_avoids {looks : Bool} {now : Nat} (horder : s.startTime ≤ s.endTime)
    (hdust : bad none → 0 < dustOf s → Payable env w (dustTransfer host s))
    (hfits : s.autoRenew = true → s.endTime ≤ now → s.endTime + (s.endTime - s.startTime) ≤ u64Max)
    (hrenew : bad none → s.autoRenew = true → s.endTime ≤ now →
      (looks = true → s.deposit ≤ w.balances s.token s.sender) →
      env.auths s.sender = true ∧ Payable env w (renewalTransfer host s)) :
    Avoids bad env w (settleStream looks id s now) := by
  refine avoids_ite (fun hend => ?_) fun _ => saveStream_avoids
  have hspan : subU64 s.endTime s.startTime env w = .ok (s.endTime - s.startTime) w := subU64_ok.mpr ⟨horder, rfl, rfl⟩
  refine avoids_bind (avoids_of_ok hspan) ?_
  intro duration v hv
  obtain ⟨rfl, rfl⟩ := Outcome.ok.inj (hspan.symm.trans hv)
  have hrefund : Avoids bad env w (refundDust s (dustOf s)) := transferPositive_avoids hdust
  refine avoids_ite (fun hauto => avoids_read_bind ?_) fun _ => avoids_bind hrefund fun _ _ _ => closeStream_avoids
  refine avoids_ite (fun _ => avoids_bind hrefund fun _ _ _ => saveStream_avoids) fun hlooks => ?_
  have hfunds : looks = true → s.deposit ≤ w.balances s.token s.sender := by
    intro h
    by_contra hlow
    exact hlooks ⟨h, not_le.mp hlow⟩
  refine avoids_bind (requireAuth_avoids fun hnone => (hrenew hnone hauto hend hfunds).1) ?_
  intro _ v hv
  obtain ⟨-, rfl⟩ := requireAuth_ok.mp hv
  refine avoids_bind (transfer_avoids fun hnone => (hrenew hnone hauto hend hfunds).2) fun _ _ _ => ?_
  refine avoids_okOr_bind (fun hnone => ?_) fun _ _ => saveStream_avoids
  rw [checkedAddU64, Checked.addNat, if_pos (hfits hauto hend)] at hnone
  exact absurd hnone (Option.some_ne_none _)

/-- The parties of the stored streams sign, and tokens refuse nothing that is covered. -/
structure Willing (env : Env host) (w : World) : Prop where
  senders : ∀ id s, w.book.streams.lookup id = some s → env.auths s.sender = true
  accepts : ∀ b t, 0 ≤ t.amount → t.amount ≤ b t.token t.payer → env.accepts b t = true

theorem Willing.honours (h : Willing env w) : Honours env := fun b t _ => h.accepts b t

theorem share_bounds (hsound : Sound env.now s) {t : Nat} (hclaim : claim = flowed s t ∨ claim = 0) :
    0 ≤ claim ∧ claim ≤ s.remaining := by
  refine ⟨claim_nonneg hsound.toAccounted hclaim, ?_⟩
  rcases hclaim with rfl | rfl
  · exact hsound.toAccounted.flowed_le_remaining t
  · exact hsound.toAccounted.remaining_nonneg

theorem claim_avoids {hook : FeeHook host} {after : Int → Contract host Unit} {t : Nat}
    (hhook : ∀ a token fee w, Avoids bad env w (hook a token fee)) (hafter : ∀ a w, Avoids bad env w (after a))
    (hw : Solvent host env.now w) (hsmall : Modest w) (hs : w.book.streams.lookup id = some s) (hlive : s.Live)
    (hclaim : claim = flowed s t ∨ claim = 0) (htoken : bad none → Honours env) :
    Avoids bad env w (claimBlock hook after s claim) := by
  have hsound := (hw.accounts id s hs).2
  obtain ⟨hpos, hle⟩ := share_bounds hsound hclaim
  have hcharge := chargeable hsound hw.fees (hsmall id s hs) hpos hle
  exact claimBlock_avoids hhook hafter hw.fees hpos hcharge
    fun hnone => ⟨htoken hnone, hle.trans (hw.remaining_le hs hlive)⟩

theorem settle_avoids {looks : Bool} {w₁ : World} (hw : Solvent host env.now w)
    (hs : w.book.streams.lookup id = some s) (hactive : s.status = .active)
    (hclaim : claim = flowed s env.now ∨ claim = 0) (hpaid : Moved host (claimedTransfers host w s claim) w w₁)
    (hfits : s.autoRenew = true → s.endTime + (s.endTime - s.startTime) ≤ u64Max) (hwill : bad none → Willing env w)
    (hfunds : bad none → looks = false → s.autoRenew = true → s.endTime ≤ env.now →
      s.deposit ≤ w₁.balances s.token s.sender) :
    Avoids bad env w₁ (settleStream looks id (s.checkpoint claim env.now) env.now) := by
  have hsound := (hw.accounts id s hs).2
  have hdust := dust_held hw hs hactive hclaim hpaid
  refine settleStream_avoids (hsound.started.trans hsound.stopped) ?_ (fun hauto _ => hfits hauto) ?_
  · intro hnone hpos
    exact ⟨hpos.le, hdust, (hwill hnone).honours _ _ rfl hpos.le hdust⟩
  · intro hnone hauto hend hlooks
    have hheld : s.deposit ≤ w₁.balances s.token s.sender := by
      cases looks with
      | true => exact hlooks rfl
      | false => exact hfunds hnone rfl hauto hend
    have hpos := hsound.toAccounted.deposit_nonneg
    exact ⟨(hwill hnone).senders id s hs, hpos, hheld, (hwill hnone).accepts _ _ hpos hheld⟩

/-- The next cycle of a stream that renews ends within the u64. -/
def RenewalFits (id : StreamId) (w : World) : Prop :=
  ∀ s, w.book.streams.lookup id = some s → s.autoRenew = true → s.endTime + (s.endTime - s.startTime) ≤ u64Max

theorem requireRunning_avoids (herr : ∀ e, bad (some e) → e = .overflow) : Avoids bad env w requireRunning := by
  refine avoids_bind (avoids_of_ok (isPausedOrAutoUnpause_run env w)) fun paused v _ => ?_
  exact avoids_failIf fun _ hbad => StreamError.noConfusion (herr _ hbad)

theorem gate_avoids {α : Type} {x : Contract host α} {a : Address} (herr : ∀ e, bad (some e) → e = .overflow)
    (hsigned : bad none → env.auths a = true) (hx : env.auths a = true → Avoids bad env (w.awake env.now) x) :
    Avoids bad env w (requireRunning >>= fun _ => requireAuth a >>= fun _ => x) := by
  refine avoids_bind (requireRunning_avoids herr) fun _ v hv => ?_
  obtain ⟨-, rfl⟩ := requireRunning_ok.mp hv
  refine avoids_bind (requireAuth_avoids hsigned) fun _ v hv => ?_
  obtain ⟨hauth, rfl⟩ := requireAuth_ok.mp hv
  exact hx hauth

theorem withdraw_avoids (herr : ∀ e, bad (some e) → e = .overflow) (hw : Solvent host env.now w) (hsmall : Modest w)
    (hfits : RenewalFits id w) (hwill : bad none → env.auths recipient = true ∧ Willing env w) :
    Avoids bad env w (withdraw id recipient) := by
  have hother : ∀ {e : StreamError}, e ≠ .overflow → ¬bad (some e) := fun hne hbad => hne (herr _ hbad)
  refine gate_avoids herr (fun hnone => (hwill hnone).1) fun _ => ?_
  refine avoids_read_bind (avoids_okOr_bind (fun _ => hother (by simp)) fun s hs => ?_)
  refine avoids_failIf_bind (fun _ => hother (by simp)) fun _ => ?_
  refine avoids_failIf_bind (fun _ => hother (by simp)) fun hactive => ?_
  refine avoids_read_bind (avoids_failIf_bind (fun _ => hother (by simp)) fun _ => ?_)
  refine avoids_read_bind (avoids_failIf_bind (fun _ => hother (by simp)) fun _ => ?_)
  have hawake : Solvent host env.now (w.awake env.now) := ⟨hw.accounts, hw.fees, hw.covered⟩
  have hsome := (hw.accounts id s hs).2.claimableAt_eq_some env.now
  refine avoids_okOr_bind (fun hnone => ?_) fun claim hamount => ?_
  · exact absurd (hnone.symm.trans hsome) (Option.some_ne_none _).symm
  have hclaim := claim_cases (claimableAt_eq hamount)
  have htold : ∀ a v, Avoids bad env v (notifyRecipient a : Contract host Unit) := fun _ _ => avoids_tryCall
  refine avoids_bind ?_ fun s' w₁ hblock => ?_
  · exact claim_avoids (fun _ _ _ _ => avoids_pure) (fun _ v => htold recipient v) hawake hsmall hs
      (.inl (not_not.mp hactive)) hclaim fun hnone => (hwill hnone).2.honours
  · obtain ⟨rfl, -, hpaid⟩ := claimBlock_ok noHook_harmless (fun h => notifyRecipient_moved h) hblock
    exact settle_avoids (w := w.awake env.now) hawake hs (not_not.mp hactive) hclaim hpaid (hfits s hs)
      (fun hnone => ⟨(hwill hnone).2.senders, (hwill hnone).2.accepts⟩) fun _ hlooks => Bool.noConfusion hlooks

/-- In a batch nobody looks at the sender's funds before a renewal. -/
def FundsRenewal (env : Env host) (id : StreamId) (w : World) : Prop :=
  ∀ s claim s' w₁, w.book.streams.lookup id = some s → s.autoRenew = true → s.endTime ≤ env.now →
    claimBlock depositHook (fun _ => pure ()) s claim env w = .ok s' w₁ → s.deposit ≤ w₁.balances s.token s.sender

theorem batchWithdrawItem_avoids (herr : ∀ e, bad (some e) → e = .overflow) (hw : Solvent host env.now w)
    (hsmall : Modest w) (hfits : RenewalFits id w) (hwill : bad none → Willing env w ∧ FundsRenewal env id w) :
    Avoids bad env w (batchWithdrawItem recipient id) := by
  have hother : ∀ {e : StreamError}, e ≠ .overflow → ¬bad (some e) := fun hne hbad => hne (herr _ hbad)
  refine avoids_read_bind (avoids_okOr_bind (fun _ => hother (by simp)) fun s hs => ?_)
  refine avoids_failIf_bind (fun _ => hother (by simp)) fun _ => ?_
  refine avoids_failIf_bind (fun _ => hother (by simp)) fun hactive => ?_
  refine avoids_read_bind (avoids_failIf_bind (fun _ => hother (by simp)) fun _ => ?_)
  have hsome := (hw.accounts id s hs).2.earnedAt_eq_some env.now
  refine avoids_okOr_bind (fun hnone => ?_) fun claim hamount => ?_
  · exact absurd (hnone.symm.trans hsome) (Option.some_ne_none _).symm
  have hclaim : claim = flowed s env.now ∨ claim = 0 := .inl (earnedAt_eq hamount)
  refine avoids_bind ?_ fun s' w₁ hblock => ?_
  · exact claim_avoids (fun _ _ _ _ => avoids_tryCall) (fun _ _ => avoids_pure) hw hsmall hs
      (.inl (not_not.mp hactive)) hclaim fun hnone => (hwill hnone).1.honours
  · obtain ⟨rfl, -, hpaid⟩ := batchClaim_ok hblock
    refine avoids_bind ?_ fun _ _ _ => avoids_pure
    exact settle_avoids hw hs (not_not.mp hactive) hclaim hpaid (hfits s hs) (fun hnone => (hwill hnone).1)
      fun hnone _ hauto hend => (hwill hnone).2 s claim _ w₁ hs hauto hend hblock

/-- A withdrawal changes no deposit, no sender and no flag for renewal. -/
theorem withdrawal_stored {single : Bool} {w₁ : World} {out : Option Stream} {us : List Transfer} {j : StreamId}
    {r : Stream} (h : Withdrawal env w single id s claim w₁ out us) (hid : s.id = id)
    (hr : (Withdrawal.result w₁ id s claim env.now out us).book.streams.lookup j = some r) :
    ∃ q, w.book.streams.lookup j = some q ∧ r.deposit = q.deposit ∧ r.sender = q.sender ∧
      r.autoRenew = q.autoRenew := by
  rcases h.lookup_cases hid hr with ⟨rfl, rfl⟩ | hother
  · have hkept : r.deposit = s.deposit ∧ r.sender = s.sender ∧ r.autoRenew = s.autoRenew := by
      cases h.settled with
      | running | renewed | lapsed => exact ⟨rfl, rfl, rfl⟩
    exact ⟨s, h.stored, hkept⟩
  · exact ⟨r, hother, rfl, rfl, rfl⟩

theorem batchWithdraw_avoids {ids : List StreamId} (herr : ∀ e, bad (some e) → e = .overflow)
    (hw : Solvent host env.now w) (hsmall : Modest w)
    (hfits : Along (batchWithdrawItem recipient) RenewalFits env ids (w.awake env.now))
    (hwill : bad none → env.auths recipient = true ∧ Willing env w ∧
      Along (batchWithdrawItem recipient) (FundsRenewal env) env ids (w.awake env.now)) :
    Avoids bad env w (batchWithdraw ids recipient) := by
  refine gate_avoids herr (fun hnone => (hwill hnone).1) fun hauth => ?_
  have hstart : Solvent host env.now (w.awake env.now) ∧ Modest (w.awake env.now) ∧
      (bad none → Willing env (w.awake env.now)) :=
    ⟨⟨hw.accounts, hw.fees, hw.covered⟩, hsmall, fun hnone => ⟨(hwill hnone).2.1.senders, (hwill hnone).2.1.accepts⟩⟩
  refine avoids_each (fun v => Solvent host env.now v ∧ Modest v ∧ (bad none → Willing env v)) ?_ ?_ hstart
    (hfits.and (.of_imp fun hnone => (hwill hnone).2.2))
  · rintro id v ⟨hv, hsmall, hwilling⟩ ⟨hnext, hfunds⟩
    exact batchWithdrawItem_avoids herr hv hsmall hnext fun hnone => ⟨hwilling hnone, hfunds hnone⟩
  · rintro id v claim v' ⟨hv, hsmall, hwilling⟩ hitem
    obtain ⟨s, w₁, out, us, -, hwd, rfl⟩ := batchWithdrawItem_ok hauth hitem
    have hid := (hv.accounts id s hwd.stored).1
    refine ⟨acted_solvent (withdrawal_acted hwd) hv, ?_, fun hnone => ⟨?_, (hwilling hnone).accepts⟩⟩
    · intro j r hr
      obtain ⟨q, hq, hdeposit, -⟩ := withdrawal_stored hwd hid hr
      rw [hdeposit]
      exact hsmall j q hq
    · intro j r hr
      obtain ⟨q, hq, -, hsender, -⟩ := withdrawal_stored hwd hid hr
      rw [hsender]
      exact (hwilling hnone).senders j q hq

theorem claimForTransfer_avoids {tau : Nat} (hw : Solvent host env.now w) (hsmall : Modest w)
    (hs : w.book.streams.lookup id = some s) (hlive : s.Live) (htoken : bad none → Honours env) :
    Avoids bad env w (claimForTransfer s tau) := by
  have hsound := (hw.accounts id s hs).2
  refine avoids_ite (fun _ => ?_) fun _ => avoids_pure
  refine avoids_okOr_bind (fun hnone => ?_) fun claim hamount => ?_
  · exact absurd (hnone.symm.trans (hsound.claimableAt_eq_some tau)) (Option.some_ne_none _).symm
  obtain ⟨hpos, hle⟩ := share_bounds hsound (claim_cases (claimableAt_eq hamount))
  have hcharge := chargeable hsound hw.fees (hsmall id s hs) hpos hle
  refine avoids_ite (fun _ => ?_) fun _ => avoids_pure
  refine avoids_bind ?_ fun _ _ _ => ?_
  · exact payClaim_avoids (fun _ _ _ _ => avoids_pure) hw.fees hpos (hcharge.fits s.recipient)
      fun hnone => ⟨htoken hnone, hle.trans (hw.remaining_le hs hlive)⟩
  · obtain ⟨⟨total, htotal, -⟩, -⟩ := hcharge
    refine avoids_okOr_bind (fun hnone => ?_) fun _ _ => avoids_pure
    exact absurd (hnone.symm.trans htotal) (Option.some_ne_none total).symm

theorem transferRecipient_avoids {current : Address} (herr : ∀ e, bad (some e) → e = .overflow)
    (hw : Solvent host env.now w) (hsmall : Modest w) (hx : Entries w.book) (hspace : Spacious w.book)
    (hwill : bad none → env.auths current = true ∧ Willing env w) :
    Avoids bad env w (transferRecipient id current recipient) := by
  have hother : ∀ {e : StreamError}, e ≠ .overflow → ¬bad (some e) := fun hne hbad => hne (herr _ hbad)
  refine gate_avoids herr (fun hnone => (hwill hnone).1) fun _ => ?_
  refine avoids_read_bind (avoids_okOr_bind (fun _ => hother (by simp)) fun s hs => ?_)
  refine avoids_failIf_bind (fun _ => hother (by simp)) fun _ => ?_
  refine avoids_failIf_bind (fun _ => hother (by simp)) fun hlive => ?_
  refine avoids_read_bind ?_
  have hawake : Solvent host env.now (w.awake env.now) := ⟨hw.accounts, hw.fees, hw.covered⟩
  refine avoids_bind ?_ fun s' w₁ hclaimed => ?_
  · exact claimForTransfer_avoids (w := w.awake env.now) hawake hsmall hs (not_not.mp hlive)
      fun hnone => (hwill hnone).2.honours
  obtain ⟨claim, -, rfl, -, hpaid⟩ := claimForTransfer_ok hclaimed
  refine avoids_bind saveStream_avoids fun _ v hv => ?_
  obtain rfl := saveStream_ok.mp hv
  refine avoids_bind avoids_update fun _ v hv => ?_
  simp only [Storage.unindexByRecipient, setBook, update_ok] at hv
  subst hv
  have hroom := hspace.room hx hs recipient
  refine avoids_read_bind (avoids_bind (avoids_haltIf fun hfull => absurd hroom ?_) fun _ _ _ => avoids_update)
  simp only [withBook_book, Book.save, hpaid.book, advance_recipient] at hfull
  exact not_le.mpr hfull

/-- The call reports no overflow, and where the environment lets it through it does not trap. -/
structure Unfailing {α : Type} (env : Env host) (w : World) (x : Contract host α) (passes : Prop) : Prop where
  no_overflow : ∀ v, x env w ≠ .err .overflow v
  no_trap : passes → x env w ≠ .trap

theorem unfailing_of_avoids {α : Type} {x : Contract host α} {passes : Prop}
    (h : ∀ bad : Option StreamError → Prop, (∀ e, bad (some e) → e = .overflow) → (bad none → passes) →
      Avoids bad env w x) :
    Unfailing env w x passes := by
  have hover := h (fun failure => failure = some .overflow) (fun e he => Option.some.inj he) fun hnone => by cases hnone
  refine ⟨fun v => hover.not_err rfl v, fun hpasses => ?_⟩
  exact (h (fun failure => failure = none) (fun e he => by cases he) fun _ => hpasses).not_trap rfl

end

theorem computable {now : Nat} (hsound : Sound now s) (hfee : FeeBounded w.config)
    (hsmall : s.deposit ≤ i128Max / 10000) (t : Nat) : Computable w s t := by
  have hpos := flowed_nonneg hsound.rate t
  have hle := hsound.toAccounted.flowed_le_remaining t
  refine ⟨⟨_, hsound.claimableAt_eq_some t, ?_⟩, ⟨_, hsound.earnedAt_eq_some t, ?_⟩,
    hsound.started.trans hsound.stopped⟩
  · split
    · exact chargeable hsound hfee hsmall hpos hle
    · exact chargeable hsound hfee hsmall le_rfl hsound.toAccounted.remaining_nonneg
  · exact chargeable hsound hfee hsmall hpos hle

theorem getClaimable_unfailing (hw : Solvent host env.now w) (id : StreamId) :
    Unfailing env w (getClaimable id) True := by
  refine unfailing_of_avoids fun bad herr _ => ?_
  cases hs : w.book.streams.lookup id with
  | some s => exact avoids_of_ok (getClaimable_eq (hw.accounts id s hs).2 hs)
  | none =>
      have hload : Avoids bad env w (getStream id) := by
        refine avoids_read_bind (avoids_okOr fun _ hbad => ?_)
        exact StreamError.noConfusion (herr _ hbad)
      refine avoids_bind hload fun s v hok => ?_
      obtain ⟨hsome, -⟩ := by simpa only [getStream, ask, read_bind, okOr_ok] using hok
      exact absurd (hs.symm.trans hsome) (Option.some_ne_none s).symm

/-- Where no deposit exceeds a ten-thousandth of the i128, no claim of an active stream can
fail on arithmetic, at any time and whatever came before. -/
theorem claims_in_range (h : Reached host c)
    (hsmall : ∀ id s, c.world.book.streams.lookup id = some s → s.deposit ≤ i128Max / 10000) :
    (∀ id s, c.world.book.streams.lookup id = some s → s.status = .active → ∀ t, Computable c.world s t) ∧
    ∀ env : Env host, c.now ≤ env.now →
      (∀ id recipient, RenewalFits id c.world →
        Unfailing env c.world (withdraw id recipient) (env.auths recipient = true ∧ Willing env c.world)) ∧
      (∀ ids recipient, Along (batchWithdrawItem recipient) RenewalFits env ids (c.world.awake env.now) →
        Unfailing env c.world (batchWithdraw ids recipient) (env.auths recipient = true ∧ Willing env c.world ∧
          Along (batchWithdrawItem recipient) (FundsRenewal env) env ids (c.world.awake env.now))) ∧
      (∀ id current recipient, Unfailing env c.world (transferRecipient id current recipient)
        (env.auths current = true ∧ Willing env c.world)) ∧
      ∀ id, Unfailing env c.world (getClaimable id) True := by
  refine ⟨?_, ?_⟩
  · intro id s hs _ t
    have hw := reached_solvent h
    exact computable (hw.accounts id s hs).2 hw.fees (hsmall id s hs) t
  · intro env hnow
    have hw : Solvent host env.now c.world := aside_solvent hnow (.refl _) (reached_solvent h)
    refine ⟨?_, ?_, ?_, getClaimable_unfailing hw⟩
    · intro id recipient hfits
      exact unfailing_of_avoids fun bad herr hpasses => withdraw_avoids herr hw hsmall hfits hpasses
    · intro ids recipient hfits
      exact unfailing_of_avoids fun bad herr hpasses => batchWithdraw_avoids herr hw hsmall hfits hpasses
    · intro id current recipient
      exact unfailing_of_avoids fun bad herr hpasses =>
        transferRecipient_avoids herr hw hsmall (reached_entries h) (reached_spacious h) hpasses

theorem sample_claims_in_range :
    let w := (Sample.genesis.after [Sample.opening 500 0]).world
    Computable w (createdStream Sample.site (Sample.terms 500 0) 10) 2010 ∧
      (∀ v, batchWithdraw [Sample.streamId] (Sample.party 3) (Sample.both 2010) w ≠ .err .overflow v) ∧
      batchWithdraw [Sample.streamId] (Sample.party 3) (Sample.both 2010) w ≠ .trap := by
  intro w
  have hreached : Reached Sample.site (Sample.genesis.after [Sample.opening 500 0]) :=
    reached_after Sample.genesis_fresh (by decide)
  have hstored : w.book.streams.lookup Sample.streamId = some (createdStream Sample.site (Sample.terms 500 0) 10) := by
    decide +kernel
  have honly : ∀ id s, w.book.streams.lookup id = some s → s = createdStream Sample.site (Sample.terms 500 0) 10 := by
    intro id s hs
    by_cases hid : id = Sample.streamId
    · subst hid
      exact Option.some.inj (hs.symm.trans hstored)
    · have hnone : w.book.streams.lookup id = (∅ : Streams).lookup id := Finmap.lookup_insert_of_ne _ hid
      rw [hnone, Finmap.lookup_empty] at hs
      exact absurd hs.symm (Option.some_ne_none s)
  have hsmall : ∀ id s, w.book.streams.lookup id = some s → s.deposit ≤ i128Max / 10000 := by
    intro id s hs
    rw [honly id s hs]
    decide
  have hfits : Along (batchWithdrawItem (Sample.party 3)) RenewalFits (Sample.both 2010) [Sample.streamId]
      (w.awake 2010) := by
    refine ⟨fun s hs hauto => ?_, fun _ _ _ => trivial⟩
    rw [honly _ s hs] at hauto
    exact Bool.noConfusion hauto
  have hwilling : Willing (Sample.both 2010) w := by
    refine ⟨fun id s hs => ?_, fun _ _ _ _ => rfl⟩
    rw [honly id s hs]
    decide
  have hfunds : Along (batchWithdrawItem (Sample.party 3)) (FundsRenewal (Sample.both 2010)) (Sample.both 2010)
      [Sample.streamId] (w.awake 2010) := by
    refine ⟨fun s claim s' w₁ hs hauto => ?_, fun _ _ _ => trivial⟩
    rw [honly _ s hs] at hauto
    exact Bool.noConfusion hauto
  obtain ⟨hcomputable, hcalls⟩ := claims_in_range hreached hsmall
  have hbatch := (hcalls (Sample.both 2010) (by decide)).2.1 _ _ hfits
  exact ⟨hcomputable _ _ hstored rfl 2010, hbatch.no_overflow, hbatch.no_trap ⟨by decide, hwilling, hfunds⟩⟩

end SoroStream
