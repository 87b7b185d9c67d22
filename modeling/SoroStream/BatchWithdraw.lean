import SoroStream.CatchUp
import SoroStream.Lib.Batch

namespace SoroStream

open Lib Lib.Rollback Lib.Rollback.Prog Contract

variable {host : Host} {env : Env host} {w w' v v' t t' : World} {c : Chain} {ids : List StreamId} {id : StreamId}
  {s s' : Stream} {recipient : Address} {claim : Int} {claims : List Int}

/-- The contract at `a` answers a call to `f`: foreign code may move tokens then, the two
contracts do not. -/
def Env.answered (env : Env host) (a : Address) (f : String) (b : Balances) : Balances :=
  if a = host.contract ∨ a = host.treasury then b else ((env.foreign a f b).map Prod.snd).getD b

def Quiet (env : Env host) : Prop :=
  ∀ a f b x b', f = "on_stream_withdraw" ∨ f = "deposit" → env.foreign a f b = some (x, b') → b' = b

theorem Quiet.answered {f : String} (h : Quiet env) (hf : f = "on_stream_withdraw" ∨ f = "deposit") (a : Address)
    (b : Balances) : env.answered a f b = b := by
  unfold Env.answered
  split
  · rfl
  · cases hcall : env.foreign a f b with
    | none => rfl
    | some answer => exact h a f b answer.1 answer.2 hf hcall

def Beside (w t : World) : Prop := ∃ cells, t = { w with treasury := cells }

theorem Beside.refl (w : World) : Beside w w := ⟨w.treasury, rfl⟩

/-- What a guarded call makes of the world: of the body of the treasury contract only `R` is
known. -/
theorem called_answered {R : World → World → Prop} (hrefl : ∀ w, R w w) {a : Address} {f : String}
    {body : Contract host Int} (hbody : ∀ {w x w'}, body env w = .ok x w' → R w w') (w : World) :
    R { w with balances := env.answered a f w.balances }
      (((do let _ ← callContract a f body : Contract host Unit) env w).commit w) := by
  unfold callContract Env.answered
  by_cases hself : a = host.contract
  · rw [if_pos hself, if_pos (.inl hself)]
    exact hrefl w
  · by_cases htreasury : a = host.treasury
    · rw [if_neg hself, if_pos htreasury, if_pos (.inr htreasury)]
      cases hrun : (do let _ ← body : Contract host Unit) env w with
      | ok x v =>
          obtain ⟨_, _, hok, -, rfl⟩ := bind_ok.mp hrun
          exact hbody hok
      | err | trap => exact hrefl w
    · rw [if_neg hself, if_neg htreasury, if_neg (not_or.mpr ⟨hself, htreasury⟩)]
      have hask : ∀ g : Option (Int × Balances) → Contract host Int,
          (Prog.read (fun env w => env.foreign a f w.balances) >>= g) env w = g (env.foreign a f w.balances) env w :=
        fun _ => rfl
      cases hcall : env.foreign a f w.balances with
      | none =>
          rw [bind_trap (by rw [hask, hcall]; rfl)]
          exact hrefl w
      | some answer =>
          rw [bind_apply (by rw [hask, hcall]; rfl)]
          exact hrefl _

theorem notified_eq (env : Env host) (a : Address) (w : World) :
    w.notified env a = { w with balances := env.answered a "on_stream_withdraw" w.balances } :=
  (called_answered (R := Eq) (fun _ => rfl) (fun h => (halt_ok.mp h).elim) w).symm

theorem deposit_beside {token : Address} {fee : Int} {x : Unit}
    (h : TreasuryContract.deposit token fee env w = .ok x w') : Beside w w' := by
  simp only [TreasuryContract.deposit, TreasuryContract.setBalance, setTreasuryCells, ask, read_bind,
    okOrHalt_bind_ok, update_ok] at h
  obtain ⟨_, -, rfl⟩ := h
  exact ⟨_, rfl⟩

theorem depositHook_beside (env : Env host) (a token : Address) (fee : Int) (w : World) :
    ∃ w', depositHook a token fee env w = .ok () w' ∧
      Beside { w with balances := env.answered a "deposit" w.balances } w' := by
  refine ⟨_, rfl, called_answered Beside.refl ?_ w⟩
  intro v x v' h
  obtain ⟨_, _, hdeposit, -, rfl⟩ := bind_ok.mp h
  exact deposit_beside hdeposit

def World.deposited (w : World) (env : Env host) (treasury : Option Address) (fee : Int) : World :=
  match treasury with
  | some a => if 0 < fee then { w with balances := env.answered a "deposit" w.balances } else w
  | none => w

/-- The world in which the batch settles a stream: the claim is paid and the treasury told. -/
def World.claimedInBatch (w : World) (env : Env host) (s : Stream) (claim : Int) : World :=
  if 0 < claim then
    (w.pay (claimTransfers host w s claim)).deposited env (Storage.getTreasury w) (feeOf w s.recipient claim)
  else w

theorem afterFee_beside (token : Address) (treasury : Option Address) (fee : Int) (hrel : Beside w t) :
    ∃ t', afterFee depositHook token treasury fee env t = .ok () t' ∧ Beside (w.deposited env treasury fee) t' := by
  obtain ⟨cells, rfl⟩ := hrel
  cases treasury with
  | none => exact ⟨_, rfl, cells, rfl⟩
  | some a =>
      by_cases hdue : 0 < fee
      · obtain ⟨t', hcall, cells', rfl⟩ := depositHook_beside env a token fee { w with treasury := cells }
        refine ⟨_, by rw [afterFee, if_pos hdue, hcall], cells', ?_⟩
        rw [World.deposited, if_pos hdue]
      · refine ⟨_, by rw [afterFee, if_neg hdue]; rfl, cells, ?_⟩
        rw [World.deposited, if_neg hdue]

theorem payClaim_beside {amount : Int} (h : payClaim noHook s claim env w = .ok amount v) (hrel : Beside w t) :
    ∃ t', payClaim depositHook s claim env t = .ok amount t' ∧
      Beside ((w.pay (claimTransfers host w s claim)).deposited env (Storage.getTreasury w)
        (feeOf w s.recipient claim)) t' := by
  obtain ⟨cells, rfl⟩ := hrel
  obtain ⟨hfits, hshare, hfee, hamount, -⟩ := payClaim_ok.mp h
  have hpaid : Beside (w.pay (claimTransfers host w s claim))
      (World.pay { w with treasury := cells } (claimTransfers host w s claim)) := ⟨cells, rfl⟩
  obtain ⟨t', hafter, ht'⟩ := afterFee_beside s.token (Storage.getTreasury w) (feeOf w s.recipient claim) hpaid
  exact ⟨t', payClaim_ok.mpr ⟨hfits, hshare, hfee, hamount, hafter⟩, ht'⟩

theorem claimBlock_beside {a : Address} (h : claimBlock noHook (fun _ => notifyRecipient a) s claim env w = .ok s' v)
    (hrel : Beside w t) :
    ∃ t', claimBlock depositHook (fun _ => pure ()) s claim env t = .ok s' t' ∧
      Beside (w.claimedInBatch env s claim) t' := by
  unfold World.claimedInBatch
  unfold claimBlock at h ⊢
  by_cases hpos : 0 < claim
  · rw [if_pos hpos, okOr_bind_ok] at h
    obtain ⟨total, htotal, h⟩ := h
    obtain ⟨_, hcover, h⟩ := seq_ok.mp h
    obtain ⟨hle, rfl⟩ := failIf_ok.mp hcover
    obtain ⟨amount, v₁, hpay, h⟩ := bind_ok.mp h
    obtain ⟨_, -, h⟩ := seq_ok.mp h
    obtain ⟨rfl, -⟩ := pure_ok.mp h
    obtain ⟨t', hpay', ht'⟩ := payClaim_beside hpay hrel
    rw [if_pos hpos, if_pos hpos]
    refine ⟨t', okOr_bind_ok.mpr ⟨total, htotal, ?_⟩, ht'⟩
    exact seq_ok.mpr ⟨t, failIf_ok.mpr ⟨hle, rfl⟩, bind_ok.mpr ⟨amount, t', hpay', rfl⟩⟩
  · rw [if_neg hpos] at h
    obtain ⟨rfl, -⟩ := pure_ok.mp h
    rw [if_neg hpos, if_neg hpos]
    exact ⟨t, rfl, hrel⟩

/-- A stream at its end that would renew, and whose sender does not hold the deposit once
the claim is paid and the recipient told. -/
def Lapses (env : Env host) (w : World) (id : StreamId) : Prop :=
  ∃ s claim, w.book.streams.lookup id = some s ∧ s.autoRenew = true ∧ s.endTime ≤ env.now ∧
    claimableAt s env.now = some claim ∧ (w.claimed env s claim).balances s.token s.sender < s.deposit

/-- The recipient that the single call tells and the treasury that the batch tells leave the
same balances. -/
def AnsweredAlike (env : Env host) (w : World) (id : StreamId) : Prop :=
  ∀ s claim, w.book.streams.lookup id = some s → claimableAt s env.now = some claim →
    (w.claimed env s claim).balances = (w.claimedInBatch env s claim).balances

theorem claimed_eq (env : Env host) (w : World) (s : Stream) (claim : Int) :
    w.claimed env s claim =
      { w.pay (claimedTransfers host w s claim) with balances := (w.claimed env s claim).balances } := by
  unfold World.claimed claimedTransfers
  split
  · rw [notified_eq]
  · rw [pay_nil]

theorem claimedInBatch_eq (env : Env host) (w : World) (s : Stream) (claim : Int) :
    w.claimedInBatch env s claim =
      { w.pay (claimedTransfers host w s claim) with balances := (w.claimedInBatch env s claim).balances } := by
  unfold World.claimedInBatch claimedTransfers World.deposited
  split
  · split
    · split <;> rfl
    · rfl
  · rw [pay_nil]

theorem Quiet.claimed (h : Quiet env) : w.claimed env s claim = w.pay (claimedTransfers host w s claim) := by
  unfold World.claimed claimedTransfers
  split
  · rw [notified_eq, h.answered (.inl rfl)]
  · rw [pay_nil]

theorem Quiet.claimedInBatch (h : Quiet env) :
    w.claimedInBatch env s claim = w.pay (claimedTransfers host w s claim) := by
  unfold World.claimedInBatch claimedTransfers World.deposited
  split
  · split
    · rw [h.answered (.inr rfl), ite_self]
    · rfl
  · rw [pay_nil]

theorem settle_alongside {now : Nat} (hrel : Beside v t)
    (hfunded : ¬(s.autoRenew = true ∧ s.endTime ≤ now ∧ v.balances s.token s.sender < s.deposit))
    (h : settleStream true id s now env v = .ok () v') :
    ∃ t', settleStream false id s now env t = .ok () t' ∧ Beside v' t' := by
  obtain ⟨cells, rfl⟩ := hrel
  obtain ⟨out, us, hsettled, rfl⟩ := settleStream_ok.mp h
  refine ⟨_, settleStream_ok.mpr ⟨out, us, ?_, rfl⟩, cells, rfl⟩
  cases hsettled with
  | running hend => exact .running hend
  | renewed hend horder hauto _ hauth hpay hnew =>
      exact .renewed hend horder hauto (fun h => Bool.noConfusion h) hauth hpay hnew
  | lapsed hend _ hauto _ hfunds _ => exact absurd ⟨hauto, hend, hfunds⟩ hfunded
  | finished hend horder hauto hpay => exact .finished hend horder hauto hpay

/-- Without the look at the sender's funds there is no way to complete the stream. -/
theorem settle_unfunded {now : Nat} {u : Unit} (hauto : s.autoRenew = true) (hend : s.endTime ≤ now)
    (hlow : w.balances s.token s.sender < s.deposit) : settleStream false id s now env w ≠ .ok u w' := by
  intro h
  obtain ⟨out, us, hsettled, -⟩ := settleStream_ok.mp h
  cases hsettled with
  | running hrunning => exact absurd hend (not_le.mpr hrunning)
  | renewed _ _ _ _ _ hpay _ => exact absurd hpay.2.1 (not_le.mpr hlow)
  | lapsed _ _ _ hlooks => exact Bool.noConfusion hlooks
  | finished _ _ hnot => exact Bool.noConfusion (hauto.symm.trans hnot)

theorem pay_balances_inj {ts : List Transfer} (h : (v.pay ts).balances = (t.pay ts).balances) :
    v.balances = t.balances := by
  funext token a
  have hboth := congrFun (congrFun h token) a
  simp only [pay_balances] at hboth
  omega

/-- Two settlements that end alike began alike: a stream that completes for want of funds is
stored otherwise than one that renews. -/
theorem settled_alike {now : Nat} (hid : s.id = id) (hactive : s.status = .active)
    (hsingle : settleStream true id s now env v = .ok () v') (hbatch : settleStream false id s now env t = .ok () t')
    (hstreams : t'.book.streams = v'.book.streams) (hbalances : t'.balances = v'.balances) :
    t.balances = v.balances ∧ ¬(s.autoRenew = true ∧ s.endTime ≤ now ∧ v.balances s.token s.sender < s.deposit) := by
  obtain ⟨out, us, hout, rfl⟩ := settleStream_ok.mp hsingle
  obtain ⟨out', us', hout', rfl⟩ := settleStream_ok.mp hbatch
  have hsame : us' = us → t.balances = v.balances := by
    rintro rfl
    exact pay_balances_inj hbalances
  have hrecord : out' = out := by
    rw [← hout.lookup hid v.book, ← hout'.lookup hid t.book]
    exact congrArg (Finmap.lookup id) hstreams
  cases hout with
  | running hend =>
      cases hout' with
      | running => exact ⟨hsame rfl, fun h => absurd h.2.1 (not_le.mpr hend)⟩
      | renewed hover | lapsed hover | finished hover => exact absurd hover (not_le.mpr hend)
  | renewed hend _ hauto hfunds =>
      cases hout' with
      | running hover => exact absurd hend (not_le.mpr hover)
      | renewed => exact ⟨hsame rfl, fun h => absurd (hfunds rfl) (not_le.mpr h.2.2)⟩
      | lapsed _ _ _ hlooks => exact Bool.noConfusion hlooks
      | finished _ _ hnot => exact Bool.noConfusion (hauto.symm.trans hnot)
  | lapsed hend _ hauto =>
      cases hout' with
      | running hover => exact absurd hend (not_le.mpr hover)
      | renewed =>
          have hstatus : some s.status = some StreamStatus.completed := congrArg (Option.map Stream.status) hrecord
          rw [hactive] at hstatus
          cases hstatus
      | lapsed _ _ _ hlooks => exact Bool.noConfusion hlooks
      | finished _ _ hnot => exact Bool.noConfusion (hauto.symm.trans hnot)
  | finished hend _ hauto =>
      refine ⟨hsame ?_, fun h => Bool.noConfusion (hauto.symm.trans h.1)⟩
      cases hout' with
      | running hover => exact absurd hend (not_le.mpr hover)
      | renewed _ _ hnot => exact Bool.noConfusion (hauto.symm.trans hnot)
      | lapsed _ _ _ hlooks => exact Bool.noConfusion hlooks
      | finished => rfl

theorem claimed_awake (env : Env host) (w : World) (now : Nat) (s : Stream) (claim : Int) :
    ((w.awake now).claimed env s claim).balances = (w.claimed env s claim).balances := by
  unfold World.claimed
  split
  · rw [notified_eq, notified_eq]
    rfl
  · rfl

theorem claimedInBatch_awake (env : Env host) (w : World) (now : Nat) (s : Stream) (claim : Int) :
    ((w.awake now).claimedInBatch env s claim).balances = (w.claimedInBatch env s claim).balances := by
  have hdeposited : ∀ (v : World) (treasury : Option Address) (fee : Int),
      (v.awake now).deposited env treasury fee = (v.deposited env treasury fee).awake now := by
    intro v treasury fee
    cases treasury with
    | none => rfl
    | some a =>
        by_cases hdue : 0 < fee
        · simp only [World.deposited, if_pos hdue]
          rfl
        · simp only [World.deposited, if_neg hdue]
  unfold World.claimedInBatch
  split
  · have hpaid := congrArg World.balances (hdeposited (w.pay (claimTransfers host w s claim)) (Storage.getTreasury w)
      (feeOf w s.recipient claim))
    exact hpaid
  · rfl

theorem claimableAt_past_cliff {now : Nat} (h : s.cliffTime ≤ now) : claimableAt s now = earnedAt s now :=
  if_neg (not_lt.mpr h)

/-- Beside a call that succeeds, the item comes to its settlement, with the claim of the call. -/
theorem item_settles (hrel : Beside (v.awake env.now) t) (hs : v.book.streams.lookup id = some s)
    (hcliff : s.cliffTime ≤ env.now) (hclaim : claimableAt s env.now = some claim)
    (h : withdraw id recipient env v = .ok () v') :
    s.status = .active ∧
    settleStream true id (s.checkpoint claim env.now) env.now env ((v.awake env.now).claimed env s claim) = .ok () v' ∧
    ∃ t₁, Beside ((v.awake env.now).claimedInBatch env s claim) t₁ ∧
      ∀ paid t', batchWithdrawItem recipient id env t = .ok paid t' ↔
        paid = claim ∧ settleStream false id (s.checkpoint claim env.now) env.now env t₁ = .ok () t' := by
  obtain ⟨-, -, r, amount, v₁, hr, rfl, hactive, hlock, hamount, hblock, hsettle⟩ := withdraw_parts h
  obtain rfl := Option.some.inj (hs.symm.trans hr)
  obtain rfl := Option.some.inj (hclaim.symm.trans hamount)
  have hstored : t.book.streams.lookup id = some s := by
    obtain ⟨cells, rfl⟩ := hrel
    exact hs
  have hearned : earnedAt s env.now = some claim := (claimableAt_past_cliff hcliff).symm.trans hclaim
  obtain ⟨t₁, hblock', hrel'⟩ := claimBlock_beside hblock hrel
  refine ⟨hactive, claimBlock_claimed hblock ▸ hsettle, t₁, hrel', ?_⟩
  intro paid t'
  rw [batchWithdrawItem_parts]
  constructor
  · rintro ⟨q, t₂, hq, -, -, -, hagain, hblock₂, hsettle₂⟩
    obtain rfl := Option.some.inj (hstored.symm.trans hq)
    obtain rfl := Option.some.inj (hearned.symm.trans hagain)
    obtain ⟨-, rfl⟩ := Outcome.ok.inj (hblock'.symm.trans hblock₂)
    exact ⟨rfl, hsettle₂⟩
  · rintro ⟨rfl, hsettle'⟩
    exact ⟨s, t₁, hstored, rfl, hactive, hlock, hearned, hblock', hsettle'⟩

section

variable (hrel : Beside (v.awake env.now) t) (hs : v.book.streams.lookup id = some s) (hcliff : s.cliffTime ≤ env.now)
  (hclaim : claimableAt s env.now = some claim) (h : withdraw id recipient env v = .ok () v')

include hrel hs hcliff hclaim h

theorem item_follows (halike : AnsweredAlike env v id) (hfunded : ¬Lapses env v id) :
    ∃ t', batchWithdrawItem recipient id env t = .ok claim t' ∧ Beside v' t' := by
  obtain ⟨-, hsettle, t₁, hrel', hitem⟩ := item_settles hrel hs hcliff hclaim h
  have hsame : (v.awake env.now).claimed env s claim = (v.awake env.now).claimedInBatch env s claim := by
    rw [claimed_eq, claimedInBatch_eq, claimed_awake, claimedInBatch_awake, halike s claim hs hclaim]
  rw [← hsame] at hrel'
  have hholds : ¬((s.checkpoint claim env.now).autoRenew = true ∧ (s.checkpoint claim env.now).endTime ≤ env.now ∧
      ((v.awake env.now).claimed env s claim).balances (s.checkpoint claim env.now).token
        (s.checkpoint claim env.now).sender < (s.checkpoint claim env.now).deposit) := by
    rw [claimed_awake]
    rintro ⟨hauto, hend, hlow⟩
    exact hfunded ⟨s, claim, hs, hauto, hend, hclaim, hlow⟩
  obtain ⟨t', hsettle', ht'⟩ := settle_alongside hrel' hholds hsettle
  exact ⟨t', (hitem claim t').mpr ⟨rfl, hsettle'⟩, ht'⟩

theorem item_stuck (halike : AnsweredAlike env v id) (hlapses : Lapses env v id) (paid : Int) (t' : World) :
    batchWithdrawItem recipient id env t ≠ .ok paid t' := by
  obtain ⟨q, again, hq, hauto, hend, hagain, hlow⟩ := hlapses
  obtain rfl := Option.some.inj (hs.symm.trans hq)
  obtain rfl := Option.some.inj (hclaim.symm.trans hagain)
  obtain ⟨-, -, t₁, ⟨cells, rfl⟩, hitem⟩ := item_settles hrel hs hcliff hclaim h
  intro hok
  refine settle_unfunded (s := s.checkpoint claim env.now) hauto hend ?_ ((hitem paid t').mp hok).2
  change ((v.awake env.now).claimedInBatch env s claim).balances s.token s.sender < s.deposit
  rwa [claimedInBatch_awake, ← halike s claim hs hclaim]

/-- The item that ends as the call does was told the same, and found the sender as well off. -/
theorem item_told_alike (hid : s.id = id) (hok : batchWithdrawItem recipient id env t = .ok claim t')
    (hstreams : t'.book.streams = v'.book.streams) (hbalances : t'.balances = v'.balances) :
    ¬Lapses env v id ∧ AnsweredAlike env v id := by
  obtain ⟨hactive, hsettle, t₁, ⟨cells, rfl⟩, hitem⟩ := item_settles hrel hs hcliff hclaim h
  obtain ⟨-, hsettle'⟩ := (hitem claim t').mp hok
  obtain ⟨hsame, hholds⟩ := settled_alike (s := s.checkpoint claim env.now) hid hactive hsettle hsettle' hstreams
    hbalances
  constructor
  · rintro ⟨q, again, hq, hauto, hend, hagain, hlow⟩
    obtain rfl := Option.some.inj (hs.symm.trans hq)
    obtain rfl := Option.some.inj (hclaim.symm.trans hagain)
    refine hholds ⟨hauto, hend, ?_⟩
    rwa [claimed_awake]
  · intro q again hq hagain
    obtain rfl := Option.some.inj (hs.symm.trans hq)
    obtain rfl := Option.some.inj (hclaim.symm.trans hagain)
    rw [← claimed_awake env v env.now, ← claimedInBatch_awake env v env.now]
    exact hsame.symm

end

/-- Withdrawals one after another at one time, all successful, and what each of them claims. -/
inductive Collects (env : Env host) (recipient : Address) : List StreamId → List Int → World → World → Prop
  | nil (w : World) : Collects env recipient [] [] w w
  | cons {id : StreamId} {ids : List StreamId} {claim : Int} {claims : List Int} {s : Stream} {w v w' : World}
      (hs : w.book.streams.lookup id = some s) (hclaim : claimableAt s env.now = some claim)
      (hok : withdraw id recipient env w = .ok () v) (hrest : Collects env recipient ids claims v w') :
      Collects env recipient (id :: ids) (claim :: claims) w w'

def BeforeEach (env : Env host) (recipient : Address) (P : World → StreamId → Prop) : List StreamId → World → Prop
  | [], _ => True
  | id :: ids, w => P w id ∧ BeforeEach env recipient P ids ((withdraw id recipient env w).commit w)

theorem BeforeEach.of_start {P : World → StreamId → Prop} {js : List StreamId} (h : BeforeEach env recipient P ids w)
    (hjs : js <+: ids) : BeforeEach env recipient P js w := by
  induction js generalizing ids w with
  | nil => trivial
  | cons id js ih =>
      obtain ⟨rest, rfl⟩ := hjs
      exact ⟨h.1, ih h.2 ⟨rest, rfl⟩⟩

/-- No withdrawal of the sequence comes to a renewal that the sender cannot fund. -/
def NoneLapses (env : Env host) (recipient : Address) (ids : List StreamId) (w : World) : Prop :=
  BeforeEach env recipient (fun w id => ¬Lapses env w id) ids w

/-- Whoever is told of a withdrawal of the sequence leaves the balances that whoever is told
in the batch leaves. -/
def AllAnsweredAlike (env : Env host) (recipient : Address) (ids : List StreamId) (w : World) : Prop :=
  BeforeEach env recipient (AnsweredAlike env) ids w

def PastCliffs (env : Env host) (ids : List StreamId) (w : World) : Prop :=
  ∀ id ∈ ids, ∀ s, w.book.streams.lookup id = some s → s.cliffTime ≤ env.now

theorem withdraw_pastCliffs {u : Unit} (hw : Solvent host env.now w) (hcliffs : PastCliffs env ids w)
    (hmem : id ∈ ids) (h : withdraw id recipient env w = .ok u w') : PastCliffs env ids w' := by
  obtain ⟨-, s, claim, w₁, out, us, -, hwd, rfl⟩ := withdraw_ok h
  have hs : w.book.streams.lookup id = some s := hwd.stored
  have hcliff := hcliffs id hmem s hs
  have hid := (hw.accounts id s hs).1
  intro j hj r hr
  rcases hwd.lookup_cases hid hr with ⟨rfl, rfl⟩ | hother
  · have hkept : r.cliffTime = s.cliffTime := by
      cases hwd.settled with
      | running | renewed | lapsed => rfl
    exact hkept.trans_le hcliff
  · exact hcliffs j hj r hother

theorem collects_iff : (∃ claims, Collects env recipient ids claims w w') ↔
    ∃ us : List Unit, each (fun id => isolated (withdraw id recipient)) ids env w = .ok (us.map some) w' := by
  simp only [each_isolated_some]
  constructor
  · rintro ⟨claims, h⟩
    induction h with
    | nil w => exact ⟨[], rfl⟩
    | cons hs hclaim hok hrest ih =>
        obtain ⟨us, hus⟩ := ih
        exact ⟨() :: us, each_cons.mpr ⟨(), _, us, hok, hus, rfl⟩⟩
  · rintro ⟨us, h⟩
    induction ids generalizing w us with
    | nil =>
        obtain ⟨-, rfl⟩ := each_nil.mp h
        exact ⟨[], .nil w⟩
    | cons id ids ih =>
        obtain ⟨u, v, us, hok, hrest, -⟩ := each_cons.mp h
        obtain ⟨-, -, s, claim, -, hs, -, -, -, hclaim, -, -⟩ := withdraw_parts hok
        obtain ⟨claims, hclaims⟩ := ih us hrest
        exact ⟨claim :: claims, .cons hs hclaim hok hclaims⟩

theorem withdraw_awake {u : Unit} (hw : Solvent host env.now w) (h : withdraw id recipient env w = .ok u w') :
    w'.awake env.now = w' := by
  obtain ⟨-, -, hpause⟩ := withdraw_frame hw h
  rw [World.awake, hpause, settle_settle, ← hpause]

theorem run_alongside (h : Collects env recipient ids claims w w') (hw : Solvent host env.now w)
    (hcliffs : PastCliffs env ids w) (hrel : Beside (w.awake env.now) t)
    (halike : AllAnsweredAlike env recipient ids w) :
    (NoneLapses env recipient ids w →
      ∃ t', each (batchWithdrawItem recipient) ids env t = .ok claims t' ∧ Beside (w'.awake env.now) t') ∧
    ∀ paid t', each (batchWithdrawItem recipient) ids env t = .ok paid t' → NoneLapses env recipient ids w := by
  induction h generalizing t with
  | nil w => exact ⟨fun _ => ⟨t, rfl, hrel⟩, fun _ _ _ => trivial⟩
  | @cons id ids claim claims s w v w' hs hclaim hok hrest ih =>
      have hcliff := hcliffs id (by simp) s hs
      have hv := (withdraw_frame hw hok).1
      have hpast : PastCliffs env ids v :=
        fun j hj => withdraw_pastCliffs hw hcliffs (by simp) hok j (List.mem_cons_of_mem _ hj)
      have hnext : (withdraw id recipient env w).commit w = v := by rw [hok, Outcome.commit_ok]
      obtain ⟨hfirst, hothers⟩ := halike
      rw [hnext] at hothers
      constructor
      · rintro ⟨hfunded, hrest'⟩
        rw [hnext] at hrest'
        obtain ⟨t₁, hitem, ht₁⟩ := item_follows hrel hs hcliff hclaim hok hfirst hfunded
        obtain ⟨t', hitems, ht'⟩ := (ih hv hpast ((withdraw_awake hw hok).symm ▸ ht₁) hothers).1 hrest'
        exact ⟨t', each_cons.mpr ⟨claim, t₁, claims, hitem, hitems, rfl⟩, ht'⟩
      · intro paid t' hitems
        obtain ⟨first, t₁, paid', hitem, hitems', -⟩ := each_cons.mp hitems
        have hfunded : ¬Lapses env w id :=
          fun hlapses => item_stuck hrel hs hcliff hclaim hok hfirst hlapses first t₁ hitem
        obtain ⟨t₂, hsame, ht₂⟩ := item_follows hrel hs hcliff hclaim hok hfirst hfunded
        obtain ⟨-, rfl⟩ := Outcome.ok.inj (hsame.symm.trans hitem)
        refine ⟨hfunded, ?_⟩
        rw [hnext]
        exact (ih hv hpast ((withdraw_awake hw hok).symm ▸ ht₂) hothers).2 paid' t' hitems'

/-- The items that end as the calls do, after each of them. -/
theorem prefixes_alongside (h : Collects env recipient ids claims w w') (hw : Solvent host env.now w)
    (hcliffs : PastCliffs env ids w) (hrel : Beside (w.awake env.now) t)
    (hends : ∀ {js paid v}, js <+: ids → Collects env recipient js paid w v →
      ∃ t', each (batchWithdrawItem recipient) js env t = .ok paid t' ∧ t'.book.streams = v.book.streams ∧
        t'.balances = v.balances) :
    NoneLapses env recipient ids w ∧ AllAnsweredAlike env recipient ids w := by
  induction h generalizing t with
  | nil w => exact ⟨trivial, trivial⟩
  | @cons id ids claim claims s w v w' hs hclaim hok hrest ih =>
      have hcliff := hcliffs id (by simp) s hs
      have hid := (hw.accounts id s hs).1
      have hv := (withdraw_frame hw hok).1
      have hpast : PastCliffs env ids v :=
        fun j hj => withdraw_pastCliffs hw hcliffs (by simp) hok j (List.mem_cons_of_mem _ hj)
      have hnext : (withdraw id recipient env w).commit w = v := by rw [hok, Outcome.commit_ok]
      obtain ⟨t₁, hone, hstreams, hbalances⟩ := @hends [id] _ _ ⟨ids, rfl⟩ (.cons hs hclaim hok (.nil v))
      obtain ⟨_, _, _, hitem, hnone, hpaid⟩ := each_cons.mp hone
      obtain ⟨rfl, rfl⟩ := each_nil.mp hnone
      obtain ⟨rfl, -⟩ := List.cons.inj hpaid
      obtain ⟨hfunded, hfirst⟩ := item_told_alike hrel hs hcliff hclaim hok hid hitem hstreams hbalances
      obtain ⟨t₂, hsame, ht₂⟩ := item_follows hrel hs hcliff hclaim hok hfirst hfunded
      obtain ⟨-, rfl⟩ := Outcome.ok.inj (hsame.symm.trans hitem)
      have hrest' := ih hv hpast ((withdraw_awake hw hok).symm ▸ ht₂) ?_
      · exact ⟨⟨hfunded, hnext.symm ▸ hrest'.1⟩, hfirst, hnext.symm ▸ hrest'.2⟩
      · intro js paid u hjs hcollects
        obtain ⟨t', hitems, hend⟩ := hends (List.cons_prefix_cons.mpr ⟨rfl, hjs⟩) (.cons hs hclaim hok hcollects)
        obtain ⟨_, t₃, paid', hagain, hitems', heq⟩ := each_cons.mp hitems
        obtain ⟨rfl, rfl⟩ := List.cons.inj heq
        obtain ⟨-, rfl⟩ := Outcome.ok.inj (hitem.symm.trans hagain)
        exact ⟨t', hitems', hend⟩

/-- The batch does what the calls one by one do: it succeeds, returns their claims, and ends
with their records, indexes and balances. -/
def CollectsAlike (env : Env host) (recipient : Address) (ids : List StreamId) (claims : List Int) (w w₁ : World) :
    Prop :=
  ∃ w₂, batchWithdraw ids recipient env w = .ok claims w₂ ∧ w₂.book.streams = w₁.book.streams ∧
    w₂.book.senders = w₁.book.senders ∧ w₂.book.recipients = w₁.book.recipients ∧ w₂.balances = w₁.balances

/-- A batch of withdrawals and the calls one by one, where these succeed, part on the
renewals that cannot be funded and on what those who are told of a payment do, and on
nothing else. -/
theorem batch_withdraw_alike_iff {w₁ : World} (env : Env host) (h : Reached host c) (hnow : c.now ≤ env.now)
    (hrun : c.world.pause.pausedAt env.now = false) (hauth : env.auths recipient = true)
    (hcliffs : ∀ id ∈ ids, ∀ s, c.world.book.streams.lookup id = some s → s.cliffTime ≤ env.now)
    (hcalls : Collects env recipient ids claims c.world w₁) :
    ((∀ js paid v, js <+: ids → Collects env recipient js paid c.world v →
        CollectsAlike env recipient js paid c.world v) ↔
      NoneLapses env recipient ids c.world ∧ AllAnsweredAlike env recipient ids c.world) ∧
    (AllAnsweredAlike env recipient ids c.world →
      (CollectsAlike env recipient ids claims c.world w₁ ↔ NoneLapses env recipient ids c.world)) := by
  have hw : Solvent host env.now c.world := aside_solvent hnow (.refl _) (reached_solvent h)
  have hfollows : ∀ {js paid v}, js <+: ids → Collects env recipient js paid c.world v →
      NoneLapses env recipient js c.world → AllAnsweredAlike env recipient js c.world →
      CollectsAlike env recipient js paid c.world v := by
    intro js paid v hjs hcollects hfunded halike
    have hpast : PastCliffs env js c.world := fun id hid => hcliffs id (hjs.subset hid)
    obtain ⟨w₂, hitems, cells, rfl⟩ := (run_alongside hcollects hw hpast (.refl _) halike).1 hfunded
    have hopen : requireRunning env c.world = .ok () (c.world.awake env.now) := requireRunning_ok.mpr ⟨hrun, rfl⟩
    have hsigned : requireAuth recipient env (c.world.awake env.now) = .ok () (c.world.awake env.now) :=
      requireAuth_ok.mpr ⟨hauth, rfl⟩
    refine ⟨{ v.awake env.now with treasury := cells }, ?_, rfl, rfl, rfl, rfl⟩
    rw [batchWithdraw, bind_apply hopen, bind_apply hsigned]
    exact hitems
  refine ⟨⟨?_, ?_⟩, ?_⟩
  · intro halike
    refine prefixes_alongside hcalls hw hcliffs (.refl _) ?_
    intro js paid v hjs hcollects
    obtain ⟨w₂, hbatch, hstreams, -, -, hbalances⟩ := halike js paid v hjs hcollects
    exact ⟨w₂, (batchWithdraw_ok hbatch).2.2, hstreams, hbalances⟩
  · rintro ⟨hfunded, halike⟩ js paid v hjs hcollects
    exact hfollows hjs hcollects (hfunded.of_start hjs) (halike.of_start hjs)
  · intro halike
    constructor
    · rintro ⟨w₂, hbatch, -⟩
      exact (run_alongside hcalls hw hcliffs (.refl _) halike).2 claims w₂ (batchWithdraw_ok hbatch).2.2
    · exact fun hfunded => hfollows (List.prefix_refl ids) hcalls hfunded halike

namespace Sample

theorem both_quiet (time : U64) : Quiet (both time) := by
  rintro a f b x b' - h
  cases h

end Sample

theorem quiet_alike (hquiet : Quiet env) (ids : List StreamId) (w : World) :
    AllAnsweredAlike env recipient ids w := by
  induction ids generalizing w with
  | nil => trivial
  | cons id ids ih => exact ⟨fun s claim _ _ => by rw [hquiet.claimed, hquiet.claimedInBatch], ih _⟩

theorem sample_batch_withdraw_alike :
    let w := (Sample.recurs ⟨100000, by decide⟩).world
    let w₁ := Sample.afterBoth 4010 (Sample.afterBoth 4010 w)
    ((∀ js paid v, js <+: [Sample.streamId, Sample.streamId] →
        Collects (Sample.both 4010) (Sample.party 3) js paid w v →
        CollectsAlike (Sample.both 4010) (Sample.party 3) js paid w v) ↔
      NoneLapses (Sample.both 4010) (Sample.party 3) [Sample.streamId, Sample.streamId] w ∧
        AllAnsweredAlike (Sample.both 4010) (Sample.party 3) [Sample.streamId, Sample.streamId] w) ∧
    (CollectsAlike (Sample.both 4010) (Sample.party 3) [Sample.streamId, Sample.streamId] [100000, 0] w w₁ ↔
      NoneLapses (Sample.both 4010) (Sample.party 3) [Sample.streamId, Sample.streamId] w) := by
  intro w w₁
  have hreached : Reached Sample.site (Sample.recurs ⟨100000, by decide⟩) := Sample.recurs_reached _
  have hstored : w.book.streams.lookup Sample.streamId = some (Sample.recurringStream ⟨100000, by decide⟩) := by
    decide +kernel
  have hrenewed : (Sample.afterBoth 4010 w).book.streams.lookup Sample.streamId =
      some (Sample.recurringStream ⟨100000, by decide⟩).renewed := by decide +kernel
  have hfirst : withdraw Sample.streamId (Sample.party 3) (Sample.both 4010) w = .ok () (Sample.afterBoth 4010 w) :=
    Outcome.ok_commit (by decide +kernel) _
  have hsecond : withdraw Sample.streamId (Sample.party 3) (Sample.both 4010) (Sample.afterBoth 4010 w) = .ok () w₁ :=
    Outcome.ok_commit (by decide +kernel) _
  have hcliffs : ∀ id ∈ [Sample.streamId, Sample.streamId], ∀ s, w.book.streams.lookup id = some s →
      s.cliffTime ≤ (Sample.both 4010).now := by
    intro id hid s hs
    obtain rfl : id = Sample.streamId := by simpa using hid
    obtain rfl := Option.some.inj (hstored.symm.trans hs)
    decide
  have hcalls : Collects (Sample.both 4010) (Sample.party 3) [Sample.streamId, Sample.streamId] [100000, 0] w w₁ :=
    .cons hstored (by decide) hfirst (.cons hrenewed (by decide) hsecond (.nil w₁))
  obtain ⟨hprefixes, hlist⟩ := batch_withdraw_alike_iff (Sample.both 4010) hreached (by decide) (by decide +kernel)
    (by decide) hcliffs hcalls
  exact ⟨hprefixes, hlist (quiet_alike (Sample.both_quiet 4010) _ w)⟩

/-- A sender left with 400000 tokens cannot lock 600000 again: the withdrawal completes the
stream, and the batch pays nobody. -/
theorem batch_withdraw_stops_at_renewal :
    Reached Sample.site (Sample.recurs ⟨600000, by decide⟩) ∧
    (Sample.recurs ⟨600000, by decide⟩).world.pause.pausedAt 4010 = false ∧
    Storage.getWithdrawalCooldown (Sample.recurs ⟨600000, by decide⟩).world = 0 ∧
    Quiet (Sample.both 4010) ∧ (Sample.recurringStream ⟨600000, by decide⟩).cliffTime = 10 ∧
    Collects (Sample.both 4010) (Sample.party 3) [Sample.streamId] [600000] (Sample.recurs ⟨600000, by decide⟩).world
      (Sample.afterBoth 4010 (Sample.recurs ⟨600000, by decide⟩).world) ∧
    ((Sample.afterBoth 4010 (Sample.recurs ⟨600000, by decide⟩).world).book.streams.lookup Sample.streamId).map
      Stream.status = some .completed ∧
    ∀ paid w₂, batchWithdraw [Sample.streamId] (Sample.party 3) (Sample.both 4010)
      (Sample.recurs ⟨600000, by decide⟩).world ≠ .ok paid w₂ := by
  have hstored : (Sample.recurs ⟨600000, by decide⟩).world.book.streams.lookup Sample.streamId =
      some (Sample.recurringStream ⟨600000, by decide⟩) := by decide +kernel
  have hok : withdraw Sample.streamId (Sample.party 3) (Sample.both 4010) (Sample.recurs ⟨600000, by decide⟩).world =
      .ok () (Sample.afterBoth 4010 (Sample.recurs ⟨600000, by decide⟩).world) :=
    Outcome.ok_commit (by decide +kernel) _
  refine ⟨Sample.recurs_reached _,
    by decide +kernel, by decide +kernel, Sample.both_quiet 4010, rfl,
    .cons hstored (by decide) hok (.nil _), by decide +kernel, ?_⟩
  intro paid w₂ hbatch
  have hnone : (batchWithdraw [Sample.streamId] (Sample.party 3) (Sample.both 4010)
      (Sample.recurs ⟨600000, by decide⟩).world).value? = none := by decide +kernel
  rw [hbatch] at hnone
  exact Option.some_ne_none paid hnone

end SoroStream
