import SoroStream.Frame

namespace SoroStream

open Lib Lib.Rollback Lib.Rollback.Prog

variable {host : Host} {env : Env host} {w w' w'' : World} {ts us : List Transfer} {u : Unit}

def Cause.isFee : Cause → Bool
  | .protocolFee _ => true
  | _ => false

def feesReceived (host : Host) (token : Address) (ts : List Transfer) : Int :=
  received host.treasury token (ts.filter fun t => t.cause.isFee)

def paidOut (host : Host) (token : Address) (ts : List Transfer) : Int := spent host.treasury token ts

abbrev tracked (w : World) (token : Address) : Int := TreasuryContract.getBalance w.treasury token

def untracked (host : Host) (w : World) (token : Address) : Int :=
  feesReceived host token w.log - paidOut host token w.log - tracked w token

structure Backed (host : Host) (w : World) : Prop where
  nonneg : ∀ token, 0 ≤ tracked w token
  covered : ∀ token, tracked w token ≤ w.balances token host.treasury
  bounded : ∀ token, tracked w token ≤ i128Max
  share : TreasuryContract.readTreasurySplitBps w.treasury ≤ 10000

@[simp] theorem feesReceived_append (token : Address) (ts us : List Transfer) :
    feesReceived host token (ts ++ us) = feesReceived host token ts + feesReceived host token us := by
  simp [feesReceived]

theorem feesReceived_eq_zero {token : Address} (h : ∀ t ∈ ts, t.cause.isFee = false) :
    feesReceived host token ts = 0 := by
  have hnone : ts.filter (fun t => t.cause.isFee) = [] :=
    List.filter_eq_nil_iff.mpr fun t ht => by simp [h t ht]
  rw [feesReceived, hnone, received_nil]

theorem feesReceived_positive (token : Address) (t : Transfer) : feesReceived host token (positive t) =
    if t.cause.isFee = true ∧ t.token = token ∧ t.payee = host.treasury then max t.amount 0 else 0 := by
  by_cases hpos : 0 < t.amount
  · by_cases hfee : t.cause.isFee = true
    · simp [feesReceived, positive, hpos, hfee, received_cons, max_eq_left hpos.le]
    · simp [feesReceived, positive, hpos, hfee]
  · simp [feesReceived, positive, hpos, max_eq_right (not_lt.mp hpos)]

theorem spent_eq_zero {a token : Address} (h : ∀ t ∈ ts, ¬(t.token = token ∧ t.payer = a)) :
    spent a token ts = 0 := by
  induction ts with
  | nil => rfl
  | cons t ts ih =>
      rw [spent_cons, if_neg (h t (by simp)), ih fun t ht => h t (by simp [ht]), add_zero]

theorem spent_nonneg {a token : Address} (h : ∀ t ∈ ts, 0 ≤ t.amount) : 0 ≤ spent a token ts := by
  induction ts with
  | nil => simp
  | cons t ts ih =>
      have ht := h t (by simp)
      have hts := ih fun t ht => h t (by simp [ht])
      rw [spent_cons]
      split <;> omega

def Tallied (host : Host) (stray : Address → Int) (w w' : World) : Prop :=
  Backed host w → Backed host w' ∧ ∀ token, untracked host w' token = untracked host w token + stray token

namespace Tallied

variable {stray stray' : Address → Int}

theorem refl (w : World) : Tallied host 0 w w := fun h => ⟨h, fun _ => by simp⟩

theorem trans (h : Tallied host stray w w') (h' : Tallied host stray' w' w'') :
    Tallied host (stray + stray') w w'' := by
  intro hw
  obtain ⟨hmid, heq⟩ := h hw
  obtain ⟨hend, heq'⟩ := h' hmid
  refine ⟨hend, fun token => ?_⟩
  rw [heq', heq, Pi.add_apply, add_assoc]

theorem before (h : Tallied host 0 w w') (h' : Tallied host stray w' w'') : Tallied host stray w w'' :=
  zero_add stray ▸ h.trans h'

theorem after (h : Tallied host stray w w') (h' : Tallied host 0 w' w'') : Tallied host stray w w'' :=
  add_zero stray ▸ h.trans h'

instance : IsPreorder World (Tallied host 0) where
  refl := refl
  trans _ _ _ := before

/-- Transfers that the treasury does not make, with its books untouched. -/
theorem of_transfers (hcells : w'.treasury = w.treasury) (hlog : w'.log = w.log ++ ts)
    (hvault : ∀ token, w.balances token host.treasury - spent host.treasury token ts +
      received host.treasury token ts ≤ w'.balances token host.treasury)
    (hpayer : ∀ t ∈ ts, t.payer ≠ host.treasury) (hamount : ∀ t ∈ ts, 0 ≤ t.amount) :
    Tallied host (fun token => feesReceived host token ts) w w' := by
  intro hw
  have hspent : ∀ token, spent host.treasury token ts = 0 :=
    fun token => spent_eq_zero fun t ht hp => hpayer t ht hp.2
  have htracked : ∀ token, tracked w' token = tracked w token := fun token => by rw [tracked, hcells]
  refine ⟨⟨?_, ?_, ?_, by rw [hcells]; exact hw.share⟩, ?_⟩
  · intro token
    rw [htracked]
    exact hw.nonneg token
  · intro token
    have hold := hw.covered token
    have hheld := hvault token
    have hin : 0 ≤ received host.treasury token ts := received_nonneg hamount
    rw [hspent] at hheld
    rw [htracked]
    omega
  · intro token
    rw [htracked]
    exact hw.bounded token
  · intro token
    have hpaid : paidOut host token (w.log ++ ts) = paidOut host token w.log := by
      rw [paidOut, paidOut, spent_append, hspent, add_zero]
    change _ = _ + feesReceived host token ts
    rw [untracked, untracked, hlog, feesReceived_append, hpaid, htracked]
    omega

theorem of_quiet (hcells : w'.treasury = w.treasury) (hlog : w'.log = w.log)
    (hvault : ∀ token, w.balances token host.treasury ≤ w'.balances token host.treasury) :
    Tallied host 0 w w' := by
  have hnone : w'.log = w.log ++ [] := by rw [hlog, List.append_nil]
  exact of_transfers hcells hnone (by simpa using hvault) (by simp) (by simp)

theorem of_others (hcells : w'.treasury = w.treasury) (hlog : w'.log = w.log ++ ts)
    (hvault : ∀ token, w.balances token host.treasury - spent host.treasury token ts +
      received host.treasury token ts ≤ w'.balances token host.treasury)
    (hpayer : ∀ t ∈ ts, t.payer ≠ host.treasury) (hamount : ∀ t ∈ ts, 0 ≤ t.amount)
    (hfees : ∀ token, feesReceived host token ts = 0) : Tallied host 0 w w' := by
  have htally := of_transfers hcells hlog hvault hpayer hamount
  have hzero : (fun token => feesReceived host token ts) = 0 := funext hfees
  rwa [hzero] at htally

end Tallied

def World.withTracked (w : World) (token : Address) (v : Option Int) : World :=
  { w with treasury := { w.treasury with balance := Function.update w.treasury.balance token v } }

theorem withTracked_tracked (w : World) (token other : Address) (v : Option Int) :
    tracked (w.withTracked token v) other = if other = token then v.getD 0 else tracked w other := by
  simp only [tracked, TreasuryContract.getBalance, World.withTracked, Function.update_apply]
  split <;> rfl

theorem setBalance_ok {token : Address} {v : Option Int} :
    TreasuryContract.setBalance token v env w = .ok u w' ↔ w.withTracked token v = w' := by
  simp only [TreasuryContract.setBalance, setTreasuryCells, update_ok]
  rfl

theorem deposit_ok {token : Address} {amount : Int} :
    TreasuryContract.deposit token amount env w = .ok u w' ↔
      (i128Min ≤ tracked w token + amount ∧ tracked w token + amount ≤ i128Max) ∧
        w.withTracked token (some (tracked w token + amount)) = w' := by
  simp only [TreasuryContract.deposit, ask, bind_ok, read_ok, okOrHalt_ok, checkedAddI128, Checked.inRange_eq_some,
    setBalance_ok, and_assoc, exists_and_left, exists_eq_left']

structure BooksSound (w : World) : Prop where
  nonneg : ∀ token, 0 ≤ tracked w token
  share : TreasuryContract.readTreasurySplitBps w.treasury ≤ 10000

theorem Backed.sound (h : Backed host w) : BooksSound w := ⟨h.nonneg, h.share⟩

structure Released (host : Host) (w w' : World) (ts : List Transfer) : Prop where
  log : w'.log = w.log ++ ts
  payout : ∀ t ∈ ts, t.cause = .payout ∧ 0 ≤ t.amount
  balances : ∀ token, w'.balances token host.treasury =
    w.balances token host.treasury - spent host.treasury token ts + received host.treasury token ts
  booked : ∀ token, tracked w token = tracked w' token + spent host.treasury token ts
  sound : BooksSound w'

def Releases (host : Host) (w w' : World) : Prop := BooksSound w → ∃ ts, Released host w w' ts

namespace Releases

theorem refl (w : World) : Releases host w w :=
  fun hw => ⟨[], by simp, by simp, by simp, by simp, hw⟩

theorem trans (h : Releases host w w') (h' : Releases host w' w'') : Releases host w w'' := by
  intro hw
  obtain ⟨ts, hts⟩ := h hw
  obtain ⟨us, hus⟩ := h' hts.sound
  refine ⟨ts ++ us, by rw [hus.log, hts.log, List.append_assoc], ?_, ?_, ?_, hus.sound⟩
  · intro t ht
    rcases List.mem_append.mp ht with ht | ht
    · exact hts.payout t ht
    · exact hus.payout t ht
  · intro token
    rw [hus.balances, hts.balances, spent_append, received_append]
    omega
  · intro token
    rw [hts.booked, hus.booked, spent_append]
    omega

instance : IsPreorder World (Releases host) where
  refl := refl
  trans _ _ _ := trans

theorem tallied (h : Releases host w w') : Tallied host 0 w w' := by
  intro hw
  obtain ⟨ts, hts⟩ := h hw.sound
  have hin : ∀ token, 0 ≤ received host.treasury token ts := fun _ => received_nonneg fun t ht => (hts.payout t ht).2
  have hout : ∀ token, 0 ≤ spent host.treasury token ts := fun _ => spent_nonneg fun t ht => (hts.payout t ht).2
  have hfees : ∀ token, feesReceived host token ts = 0 :=
    fun _ => feesReceived_eq_zero fun t ht => by rw [(hts.payout t ht).1]; rfl
  refine ⟨⟨hts.sound.nonneg, ?_, ?_, hts.sound.share⟩, ?_⟩
  · intro token
    have hcovered := hw.covered token
    have hbooked := hts.booked token
    have hback := hin token
    rw [hts.balances]
    omega
  · intro token
    have hbounded := hw.bounded token
    have hbooked := hts.booked token
    have hspent := hout token
    omega
  · intro token
    have hbooked := hts.booked token
    simp only [untracked, paidOut, hts.log, feesReceived_append, spent_append, hfees, Pi.zero_apply]
    omega

end Releases

/-- Payouts of one token, down to what is left on its books. -/
theorem release {token : Address} {v : Option Int}
    (hts : ∀ t ∈ ts, t.token = token ∧ t.cause = .payout ∧ 0 ≤ t.amount)
    (hsum : spent host.treasury token ts = tracked w token - v.getD 0) (hleft : 0 ≤ v.getD 0) :
    Releases host w ((w.withTracked token v).pay ts) := by
  intro hw
  refine ⟨ts, rfl, fun t ht => (hts t ht).2, fun other => pay_balances _ _ _ _, ?_, ?_, hw.share⟩
  · intro other
    change _ = tracked (w.withTracked token v) other + _
    rw [withTracked_tracked]
    by_cases heq : other = token
    · subst heq
      rw [if_pos rfl]
      omega
    · have hother : spent host.treasury other ts = 0 :=
        spent_eq_zero fun t ht h => heq (h.1.symm.trans (hts t ht).1)
      rw [if_neg heq, hother, add_zero]
  · intro other
    change 0 ≤ tracked (w.withTracked token v) other
    rw [withTracked_tracked]
    split
    · exact hleft
    · exact hw.nonneg other

section Treasury

open TreasuryContract

def AdminCalls (env : Env host) (w : World) (invoker : Option Address) : Prop :=
  ∃ admin, w.treasury.admin = some admin ∧ (invoker = some admin ∨ env.auths admin = true)

theorem treasuryAdmin_ok {invoker : Option Address} :
    TreasuryContract.checkAdmin invoker env w = .ok u w' ↔ AdminCalls env w invoker ∧ w = w' := by
  have hauth : ∀ admin, requireAuthFrom invoker admin env w = .ok u w' ↔
      (invoker = some admin ∨ env.auths admin = true) ∧ w = w' := by
    intro admin
    by_cases hi : invoker = some admin
    · simp [requireAuthFrom, hi]
    · simp [requireAuthFrom, hi, requireAuth_ok]
  simp only [TreasuryContract.checkAdmin, ask, read_bind, okOrHalt_bind_ok, hauth, readAdmin, AdminCalls]
  constructor
  · rintro ⟨admin, hadmin, hcall, rfl⟩
    exact ⟨⟨admin, hadmin, hcall⟩, rfl⟩
  · rintro ⟨⟨admin, hadmin, hcall⟩, rfl⟩
    exact ⟨admin, hadmin, hcall, rfl⟩

theorem withdrawTreasury_ok {invoker : Option Address} {token destination : Address} {amount : Int} :
    withdrawTreasury invoker token amount destination env w = .ok u w' ↔ AdminCalls env w invoker ∧
      amount ≤ tracked w token ∧ tracked w token - amount ≤ i128Max ∧
      Payable env w (payout host token destination amount) ∧
      (w.withTracked token (some (tracked w token - amount))).pay [payout host token destination amount] = w' := by
  have hmin : i128Min ≤ 0 := by decide
  simp only [withdrawTreasury, ask, bind_ok, treasuryAdmin_ok, read_ok, haltIf_ok, okOrHalt_ok, checkedSubI128,
    Checked.inRange_eq_some, setBalance_ok, transfer_ok, not_lt, and_assoc, exists_and_left, exists_eq_left',
    exists_const]
  constructor
  · rintro ⟨hadmin, hle, -, hroom, hpay, rfl⟩
    exact ⟨hadmin, hle, hroom, hpay, rfl⟩
  · rintro ⟨hadmin, hle, hroom, hpay, rfl⟩
    exact ⟨hadmin, hle, hmin.trans (sub_nonneg.mpr hle), hroom, hpay, rfl⟩

theorem withdrawAll_ok {invoker : Option Address} {token destination : Address} {amount : Int} :
    withdrawAll invoker token destination env w = .ok amount w' ↔ AdminCalls env w invoker ∧
      tracked w token = amount ∧
      (0 < amount ∧ Payable env w (payout host token destination amount) ∧
          (w.withTracked token none).pay [payout host token destination amount] = w' ∨
        ¬0 < amount ∧ w = w') := by
  simp only [withdrawAll, ask, bind_ok, treasuryAdmin_ok, read_ok, ite_ok, setBalance_ok, transfer_ok, pure_ok,
    and_assoc, exists_and_left, exists_eq_left', exists_const]
  constructor
  · rintro ⟨hadmin, ⟨hpos, hpay, rfl, rfl⟩ | ⟨hpos, rfl, rfl⟩⟩
    · exact ⟨hadmin, rfl, .inl ⟨hpos, hpay, rfl⟩⟩
    · exact ⟨hadmin, rfl, .inr ⟨hpos, rfl⟩⟩
  · rintro ⟨hadmin, rfl, ⟨hpos, hpay, rfl⟩ | ⟨hpos, rfl⟩⟩
    · exact ⟨hadmin, .inl ⟨hpos, hpay, rfl, rfl⟩⟩
    · exact ⟨hadmin, .inr ⟨hpos, rfl, rfl⟩⟩

theorem setTreasuryCells_releases {f : TreasuryCells → TreasuryCells} (hbalance : ∀ t, (f t).balance = t.balance)
    (hshare : ∀ t, readTreasurySplitBps t ≤ 10000 → readTreasurySplitBps (f t) ≤ 10000) :
    Keeps env (Releases host) (setTreasuryCells f) := by
  refine keeps_update ?_
  intro w hw
  have hsame : ∀ token, getBalance (f w.treasury) token = getBalance w.treasury token := by
    intro token
    rw [getBalance, getBalance, hbalance]
  refine ⟨[], by simp, by simp, by simp, ?_, fun token => ?_, hshare _ hw.share⟩
  · intro token
    change getBalance w.treasury token = getBalance (f w.treasury) token + 0
    rw [hsame, add_zero]
  · change 0 ≤ getBalance (f w.treasury) token
    exact hsame token ▸ hw.nonneg token

theorem payout_spent (token destination : Address) (amount : Int) :
    spent host.treasury token [payout host token destination amount] = amount := by
  simp [spent_cons, payout]

theorem withdrawTreasury_releases {invoker : Option Address} {token destination : Address} {amount : Int} :
    Keeps env (Releases host) (withdrawTreasury invoker token amount destination) := by
  intro w _ w' h
  obtain ⟨-, hle, -, hpay, rfl⟩ := withdrawTreasury_ok.mp h
  refine release ?_ ?_ ?_
  · intro t ht
    rw [List.mem_singleton.mp ht]
    exact ⟨rfl, rfl, hpay.1⟩
  · rw [payout_spent, Option.getD_some, sub_sub_cancel]
  · rw [Option.getD_some]
    exact sub_nonneg.mpr hle

theorem withdrawAll_releases {invoker : Option Address} {token destination : Address} :
    Keeps env (Releases host) (withdrawAll invoker token destination) := by
  intro w _ w' h
  obtain ⟨-, rfl, ⟨hpos, hpay, rfl⟩ | ⟨-, rfl⟩⟩ := withdrawAll_ok.mp h
  · refine release ?_ ?_ le_rfl
    · intro t ht
      rw [List.mem_singleton.mp ht]
      exact ⟨rfl, rfl, hpos.le⟩
    · rw [payout_spent, Option.getD_none, sub_zero]
  · exact .refl w

def treasuryShare (w : World) (token : Address) : Int :=
  (tracked w token * (readTreasurySplitBps w.treasury : Int)).tdiv 10000

def lpShare (w : World) (token : Address) : Int := tracked w token - treasuryShare w token

theorem shares_nonneg {w : World} {token : Address} (hnonneg : 0 ≤ tracked w token)
    (hshare : readTreasurySplitBps w.treasury ≤ 10000) : 0 ≤ treasuryShare w token ∧ 0 ≤ lpShare w token := by
  have hcap : (readTreasurySplitBps w.treasury : Int) ≤ 10000 := by exact_mod_cast hshare
  have hproduct : 0 ≤ tracked w token * (readTreasurySplitBps w.treasury : Int) :=
    Int.mul_nonneg hnonneg (Int.natCast_nonneg _)
  have hle : tracked w token * (readTreasurySplitBps w.treasury : Int) ≤ tracked w token * 10000 :=
    mul_le_mul_of_nonneg_left hcap hnonneg
  unfold lpShare treasuryShare
  rw [Int.tdiv_eq_ediv_of_nonneg hproduct]
  omega

theorem BooksSound.share_bounds (h : BooksSound w) (token : Address) :
    0 ≤ treasuryShare w token ∧ 0 ≤ lpShare w token :=
  shares_nonneg (h.nonneg token) h.share

def World.shared (host : Host) (w : World) (token destination : Address) : World :=
  (w.withTracked token none).pay (positive (payout host token destination (treasuryShare w token)))

theorem distribute_ok {invoker : Option Address} {token destination : Address} {v : Int × Int} :
    distribute invoker token destination env w = .ok v w' ↔ AdminCalls env w invoker ∧
      (tracked w token = 0 ∧ (0, 0) = v ∧ w = w' ∨
        tracked w token ≠ 0 ∧
        (checkedMulI128 (tracked w token) (readTreasurySplitBps w.treasury)).isSome ∧
        (checkedSubI128 (tracked w token) (treasuryShare w token)).isSome ∧
        (0 < treasuryShare w token →
          Payable env (w.withTracked token none) (payout host token destination (treasuryShare w token))) ∧
        (treasuryShare w token, lpShare w token) = v ∧
        (0 < lpShare w token ∧ (∃ pool, w.treasury.lpPool = some pool ∧
            Payable env (w.shared host token destination) (payout host token pool (lpShare w token)) ∧
            (w.shared host token destination).pay [payout host token pool (lpShare w token)] = w') ∨
          ¬0 < lpShare w token ∧ w.shared host token destination = w')) := by
  have hmul (bps : Nat) (p : Int) : checkedMulI128 (tracked w token) bps = some p ↔
      (checkedMulI128 (tracked w token) bps).isSome ∧ tracked w token * bps = p := by
    simp [checkedMulI128, Checked.inRange]
  have hsub (x y : Int) : checkedSubI128 (tracked w token) x = some y ↔
      (checkedSubI128 (tracked w token) x).isSome ∧ tracked w token - x = y := by
    simp [checkedSubI128, Checked.inRange]
  simp only [distribute, ask, bind_ok, treasuryAdmin_ok, read_ok, ite_ok, okOrHalt_ok, setBalance_ok,
    transferPositive_ok, transfer_ok, pure_ok, hmul, hsub, and_assoc, exists_and_left, exists_eq_left', exists_const]
  constructor
  · rintro ⟨hadmin, ⟨hzero, hv, rfl⟩ | ⟨hne, hproduct, hdiff, hshare, h⟩⟩
    · exact ⟨hadmin, .inl ⟨hzero, hv, rfl⟩⟩
    · refine ⟨hadmin, .inr ⟨hne, hproduct, hdiff, hshare, ?_⟩⟩
      rcases h with ⟨hpos, pool, hpool, hpay, hv, rfl⟩ | ⟨hnone, hv, rfl⟩
      · exact ⟨hv, .inl ⟨hpos, pool, hpool, hpay, rfl⟩⟩
      · exact ⟨hv, .inr ⟨hnone, rfl⟩⟩
  · rintro ⟨hadmin, ⟨hzero, hv, rfl⟩ | ⟨hne, hproduct, hdiff, hshare, hv, h⟩⟩
    · exact ⟨hadmin, .inl ⟨hzero, hv, rfl⟩⟩
    · refine ⟨hadmin, .inr ⟨hne, hproduct, hdiff, hshare, ?_⟩⟩
      rcases h with ⟨hpos, pool, hpool, hpay, rfl⟩ | ⟨hnone, rfl⟩
      · exact .inl ⟨hpos, pool, hpool, hpay, hv, rfl⟩
      · exact .inr ⟨hnone, hv, rfl⟩

theorem treasuryShare_spent (h : BooksSound w) (token destination : Address) :
    spent host.treasury token (positive (payout host token destination (treasuryShare w token))) =
      treasuryShare w token := by
  rw [spent_positive, if_pos ⟨rfl, rfl⟩]
  exact max_eq_left (h.share_bounds token).1

theorem distribute_releases {invoker : Option Address} {token destination : Address} :
    Keeps env (Releases host) (distribute invoker token destination) := by
  intro w _ w' h hw
  obtain ⟨hshare, hlp⟩ := hw.share_bounds token
  have hsum : treasuryShare w token + lpShare w token = tracked w token := add_sub_cancel _ _
  have hfirst : ∀ t ∈ positive (payout host token destination (treasuryShare w token)),
      t.token = token ∧ t.cause = .payout ∧ 0 ≤ t.amount :=
    fun t ht => mem_positive ht ▸ ⟨rfl, rfl, hshare⟩
  obtain ⟨-, ⟨-, -, rfl⟩ | ⟨-, -, -, -, -, hrest⟩⟩ := distribute_ok.mp h
  · exact Releases.refl w hw
  rcases hrest with ⟨-, pool, -, -, rfl⟩ | ⟨hnone, rfl⟩
  · rw [World.shared, pay_pay]
    refine release ?_ ?_ le_rfl hw
    · intro t ht
      rcases List.mem_append.mp ht with ht | ht
      · exact hfirst t ht
      · rw [List.mem_singleton.mp ht]
        exact ⟨rfl, rfl, hlp⟩
    · rw [spent_append, treasuryShare_spent hw, payout_spent, Option.getD_none, sub_zero]
      exact hsum
  · refine release hfirst ?_ le_rfl hw
    rw [treasuryShare_spent hw, Option.getD_none]
    omega

/-- Every call of the treasury contract but a deposit from outside. -/
theorem treasuryCall_releases {invoker : Option Address} {c : TreasuryContract.Call}
    (hc : ∀ token amount, c ≠ .deposit token amount) : Keeps env (Releases host) (c.exec invoker) := by
  have hadmin : Keeps env (Releases host) (TreasuryContract.checkAdmin invoker) := treasuryAdmin_keeps
  cases c with
  | initializeTreasury admin =>
      exact keeps_bind keeps_read fun _ => keeps_bind keeps_haltIf fun _ =>
        setTreasuryCells_releases (fun _ => rfl) fun _ h => h
  | setAdmin newAdmin => exact keeps_bind hadmin fun _ => setTreasuryCells_releases (fun _ => rfl) fun _ h => h
  | deposit token amount => exact absurd rfl (hc token amount)
  | withdrawTreasury token amount destination => exact withdrawTreasury_releases
  | withdrawAll token destination => exact keeps_bind withdrawAll_releases fun _ => keeps_pure
  | setLpPool lpPool => exact keeps_bind hadmin fun _ => setTreasuryCells_releases (fun _ => rfl) fun _ h => h
  | setTreasurySplit treasuryBps =>
      refine keeps_bind hadmin fun _ => ?_
      intro w _ w' h
      simp only [bind_ok, haltIf_ok, not_lt, and_assoc, exists_and_left, exists_eq_left', exists_const] at h
      obtain ⟨hle, h⟩ := h
      exact setTreasuryCells_releases (f := fun t => { t with splitBps := some treasuryBps.val }) (fun _ => rfl)
        (fun _ _ => hle) h
  | distribute token destination => exact keeps_bind distribute_releases fun _ => keeps_pure

end Treasury

theorem update_tallied {f : Env host → World → World} (hcells : ∀ w, (f env w).treasury = w.treasury)
    (hlog : ∀ w, (f env w).log = w.log) (hbalances : ∀ w, (f env w).balances = w.balances) :
    Keeps env (Tallied host 0) (update f : Contract host Unit) :=
  keeps_update fun w => .of_quiet (hcells w) (hlog w) fun token => by rw [hbalances]

theorem foreign_tallied {a : Address} {f : String} {v : Int} {b : Balances}
    (ha : env.foreign a f w.balances = some (v, b)) : Tallied host 0 w { w with balances := b } :=
  .of_quiet rfl rfl fun token => (env.foreign_keeps ha token).2

theorem configCall_tallied (c : ConfigCall) : Keeps env (Tallied host 0) c.exec := by
  have hconfig (f : Config → Config) : Keeps env (Tallied host 0) (setConfig f) :=
    update_tallied (fun _ => rfl) (fun _ => rfl) fun _ => rfl
  have hpause (f : PauseCells → PauseCells) : Keeps env (Tallied host 0) (setPause f) :=
    update_tallied (fun _ => rfl) (fun _ => rfl) fun _ => rfl
  refine configCall_keeps ?_ (fun _ f _ => hconfig f) (fun _ => hpause) fun _ => hconfig
  exact
    { audit := fun f => update_tallied (fun _ => rfl) (fun _ => rfl) fun _ => rfl
      wasm := fun _ w => .of_quiet rfl rfl fun _ => le_rfl
      foreign := foreign_tallied
      withdraw := fun _ _ _ _ _ _ h => (withdrawTreasury_releases h).tallied
      withdrawAll := fun _ _ _ _ _ h => (withdrawAll_releases h).tallied }

end SoroStream
