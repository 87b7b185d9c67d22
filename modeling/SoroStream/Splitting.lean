import SoroStream.PathIndependence

namespace SoroStream

open Lib Lib.Rollback Lib.Rollback.Prog Lib.Runs Contract

variable {host : Host} {env : Env host} {w w' : World} {c : Chain} {id newId : StreamId} {s : Stream} {now tau : Nat}
  {caller : Address} {cancelAmount earned streamed : Int}

def Stream.Unforfeited (s : Stream) : Prop :=
  s.totalWithdrawn = s.flowRate * ((s.lastWithdrawTime : Int) - s.startTime)

instance (s : Stream) : Decidable s.Unforfeited := inferInstanceAs (Decidable (_ = _))

/-- The balance is split into the recipient's share, what the sender asked for and
the successor's deposit, which lasts for a second at least. -/
structure SplitsExactly (host : Host) (w w' : World) (s : Stream) (share cancelAmount : Int)
    (successor : Stream) : Prop where
  paid : w'.log = w.log ++ (positive ⟨s.token, host.contract, s.recipient, share, .claim s.id⟩ ++
    [⟨s.token, host.contract, s.sender, cancelAmount, .refund s.id⟩])
  total : share + cancelAmount + successor.deposit = s.deposit - s.totalWithdrawn
  lasting : s.flowRate ≤ successor.deposit

theorem splitDeposit_eq (h : Sound now s) (hstarted : s.startTime ≤ tau)
    (hstreamed : checkedMulI128 s.flowRate ((tau - s.startTime : Nat) : Int) = some streamed) (cancelAmount : Int) :
    splitDeposit s streamed cancelAmount = s.deposit - s.flowRate * ((tau : Int) - s.startTime) - cancelAmount := by
  obtain ⟨⟨-, hle⟩, rfl⟩ := Checked.inRange_eq_some.mp hstreamed
  have hcast : ((tau - s.startTime : Nat) : Int) = tau - s.startTime := Nat.cast_sub hstarted
  have hflow : 0 ≤ s.flowRate * ((tau - s.startTime : Nat) : Int) :=
    Int.mul_nonneg (by have := h.rate; omega) (Int.natCast_nonneg _)
  have hdeposit := h.toAccounted.deposit_nonneg
  have hmax := h.deposit_max
  have hwidth : i128Min ≤ -i128Max := by decide
  have hsub : saturatingSubI128 s.deposit (s.flowRate * ((tau - s.startTime : Nat) : Int)) =
      s.deposit - s.flowRate * ((tau - s.startTime : Nat) : Int) :=
    Checked.clamp_of_mem (by omega) (by omega)
  rw [splitDeposit, hsub, hcast]

/-- Nothing but the end of the stream caps what flows: up to there the amount a split
pays is the recipient's share. -/
theorem split_share_iff (tau : Nat) (hrate : 1 ≤ s.flowRate) :
    s.flowRate * ((tau : Int) - s.lastWithdrawTime) =
      s.flowRate * (((min tau s.endTime : Nat) : Int) - s.lastWithdrawTime) ↔ tau ≤ s.endTime := by
  constructor
  · intro heq
    have hsame := mul_left_cancel₀ (by omega : s.flowRate ≠ 0) heq
    omega
  · intro hle
    rw [min_eq_left hle]

theorem claim_amount_eq {a b : Int} {ts : List Transfer}
    (h : positive (claimTransfer host s a) ++ ts = positive (claimTransfer host s b) ++ ts) (ha : 0 ≤ a) (hb : 0 ≤ b) :
    a = b := by
  have hsame := List.append_cancel_right h
  by_cases hpos : 0 < a <;> by_cases hpos' : 0 < b
  · simpa [positive, claimTransfer, hpos, hpos'] using hsame
  · simp [positive, claimTransfer, hpos, hpos'] at hsame
  · simp [positive, claimTransfer, hpos, hpos'] at hsame
  · omega

/-- The split is exact as long as the stream has not passed its end and nothing of it
was forfeited. -/
theorem Split.exact_iff (h : Split env w id s cancelAmount earned streamed) (hs : Sound env.now s) :
    let share := s.flowRate * (((min (s.clock env.now) s.endTime : Nat) : Int) - s.lastWithdrawTime)
    let successor := splitSuccessor host id s (s.clock env.now) (splitDeposit s streamed cancelAmount)
    SplitsExactly host w ((w.pay (splitTransfers host s earned cancelAmount)).withBook
        (splitBook host w.book id s (s.clock env.now) (splitDeposit s streamed cancelAmount))) s share cancelAmount
      successor ↔ s.clock env.now ≤ s.endTime ∧ s.Unforfeited := by
  intro share successor
  obtain ⟨hmark, -⟩ := hs.clock h.live
  have hdeposit := splitDeposit_eq hs (hs.started.trans hmark) h.streamed_eq cancelAmount
  have hearned : earned = s.flowRate * ((s.clock env.now : Int) - s.lastWithdrawTime) := by
    rw [← Nat.cast_sub hmark]
    exact (Checked.inRange_eq_some.mp h.earned_eq).2.symm
  have hrate := hs.rate
  have hpos : 0 ≤ earned := by
    rw [hearned]
    exact Int.mul_nonneg (by omega) (by omega)
  have hshare : 0 ≤ share := Int.mul_nonneg (by omega) (by have := hs.stopped; omega)
  -- what the parts add up to, however much flowed
  have hsum : earned + cancelAmount + successor.deposit =
      s.deposit - s.flowRate * ((s.lastWithdrawTime : Int) - s.startTime) := by
    change earned + cancelAmount + splitDeposit s streamed cancelAmount = _
    rw [hdeposit, hearned]
    ring
  have hiff := split_share_iff (s.clock env.now) hrate
  rw [← hearned] at hiff
  constructor
  · rintro ⟨hpaid, htotal, -⟩
    have hlist : splitTransfers host s earned cancelAmount = splitTransfers host s share cancelAmount :=
      List.append_cancel_left hpaid
    have hsame : earned = share := claim_amount_eq hlist hpos hshare
    refine ⟨hiff.mp hsame, ?_⟩
    rw [← hsame, hsum] at htotal
    simp only [Stream.Unforfeited]
    omega
  · rintro ⟨hend, hcounted⟩
    have hsame : earned = share := hiff.mpr hend
    refine ⟨?_, ?_, h.left⟩
    · rw [← hsame]
      rfl
    · rw [← hsame, hsum, hcounted]

theorem partial_cancel_exact_iff (env : Env host) (h : Reached host c) (hnow : c.now ≤ env.now)
    (hs : c.world.book.streams.lookup id = some s)
    (hok : partialCancelStream id caller cancelAmount env c.world = .ok newId w') :
    let tau := if s.status = .paused then s.lastPauseTime else env.now
    let share := s.flowRate * (((min tau s.endTime : Nat) : Int) - s.lastWithdrawTime)
    ∃ successor, w'.book.streams.lookup newId = some successor ∧
      (SplitsExactly host c.world w' s share cancelAmount successor ↔
        tau ≤ s.endTime ∧ s.totalWithdrawn = s.flowRate * ((s.lastWithdrawTime : Int) - s.startTime)) := by
  intro tau share
  have hsound := (((reached_accounts h).mono hnow) id s hs).2
  obtain ⟨-, r, earned, streamed, -, rfl, hsplit, rfl⟩ := partialCancelStream_ok hok
  obtain rfl := Option.some.inj (hs.symm.trans hsplit.stored)
  exact ⟨_, Finmap.lookup_insert _, hsplit.exact_iff hsound⟩

namespace Sample

def dusty : Chain := genesis.after [call [2] 10 (.createStream { terms 0 0 with amount := ⟨7999, by decide⟩ })]

def split (time : U64) (amount : Int) (w : World) : World :=
  (partialCancelStream streamId (party 2) amount (signed [2] time) w).commit w

end Sample

theorem sample_partial_cancel_exact : ∃ successor,
    (Sample.split 2010 20000 (Sample.genesis.after [Sample.opening 0 0]).world).book.streams.lookup 6620000 =
      some successor ∧
    (SplitsExactly Sample.site (Sample.genesis.after [Sample.opening 0 0]).world
        (Sample.split 2010 20000 (Sample.genesis.after [Sample.opening 0 0]).world)
        (createdStream Sample.site (Sample.terms 0 0) 10) 50000 20000 successor ↔
          2010 ≤ 4010 ∧ (0 : Int) = 25 * (10 - 10)) := by
  have hreached : Reached Sample.site (Sample.genesis.after [Sample.opening 0 0]) :=
    reached_after Sample.genesis_fresh (by decide)
  have hstored : (Sample.genesis.after [Sample.opening 0 0]).world.book.streams.lookup Sample.streamId =
      some (createdStream Sample.site (Sample.terms 0 0) 10) := by decide
  have hok : partialCancelStream Sample.streamId (Sample.party 2) 20000 (Sample.signed [2] 2010)
      (Sample.genesis.after [Sample.opening 0 0]).world =
      .ok 6620000 (Sample.split 2010 20000 (Sample.genesis.after [Sample.opening 0 0]).world) :=
    Outcome.ok_commit (by decide +kernel) _
  exact partial_cancel_exact_iff (Sample.signed [2] 2010) hreached (by decide) hstored hok

theorem split_overpays :
    Reached Sample.site Sample.dusty ∧
    (Sample.dusty.world.book.streams.lookup Sample.streamId).map (fun s =>
      (s.status, s.totalWithdrawn, s.flowRate * (((min 4020 s.endTime : Nat) : Int) - s.lastWithdrawTime))) =
        some (.active, 0, 4000) ∧
    (partialCancelStream Sample.streamId (Sample.party 2) 100 (Sample.signed [2] 4020) Sample.dusty.world).value? =
      some 8630000 ∧
    Sample.dusty.world.balances (Sample.party 9) (Sample.party 3) = 1000000 ∧
    (Sample.split 4020 100 Sample.dusty.world).balances (Sample.party 9) (Sample.party 3) = 1004010 :=
  ⟨reached_after Sample.genesis_fresh (by decide), by decide +kernel, by decide +kernel, by decide +kernel,
    by decide +kernel⟩

/-- From `c` on, and as long as nothing touches the record, what can be claimed of a
stream is what flows after the ledger time of `c`. -/
def VestsFromNow (host : Host) (c : Chain) (id : StreamId) (s : Stream) : Prop :=
  ∀ (events : List (Event host)) (c' : Chain) (env : Env host) (x : Nat), SystemRun host c events c' →
    c'.world.book.streams.lookup id = some s → c'.now ≤ env.now → env.now = c.now + x →
    x ≤ s.endTime - s.startTime → getClaimable id env c'.world = .ok (s.flowRate * x) c'.world

theorem reached_split (h : Reached host c) (hnow : c.now ≤ env.now) {amount : I128}
    (hok : partialCancelStream id caller amount.val env c.world = .ok newId w') : Reached host ⟨w', env.now⟩ := by
  have hexec : (StreamCall.partialCancelStream id caller amount).exec env c.world = .ok [newId] w' :=
    bind_ok.mpr ⟨newId, w', hok, rfl⟩
  rw [← step_of_ok hexec]
  exact h.next ⟨hnow, trivial⟩

/-- The successor runs from the clock of the stream it replaces. -/
theorem splitSuccessor_claimable {deposit : Int} (hsound : Sound now (splitSuccessor host id s tau deposit))
    (hs : w.book.streams.lookup newId = some (splitSuccessor host id s tau deposit)) (hbefore : tau ≤ env.now) :
    getClaimable newId env w =
      .ok (s.flowRate * ((min env.now (tau + (deposit.tdiv s.flowRate).toNat) - tau : Nat) : Int)) w := by
  have hclock : (splitSuccessor host id s tau deposit).clock env.now = env.now := rfl
  have hactive : (splitSuccessor host id s tau deposit).Live := .inl rfl
  rw [getClaimable_eq hsound hs, hclock, if_pos ⟨hactive, hbefore⟩]
  rfl

/-- The successor vests from now exactly when the clock of the stream stood at the
ledger time: it was active, or had been paused in this very ledger. -/
theorem successor_vests_iff (env : Env host) (h : Reached host c) (hnow : c.now ≤ env.now)
    (hs : c.world.book.streams.lookup id = some s) {amount : I128}
    (hok : partialCancelStream id caller amount.val env c.world = .ok newId w') :
    ∃ successor, w'.book.streams.lookup newId = some successor ∧
      (VestsFromNow host ⟨w', env.now⟩ newId successor ↔ (s.status = .paused → s.lastPauseTime = env.now)) := by
  have hreached := reached_split h hnow hok
  have hsound := (((reached_accounts h).mono hnow) id s hs).2
  obtain ⟨-, r, earned, streamed, -, rfl, hsplit, rfl⟩ := partialCancelStream_ok hok
  obtain rfl := Option.some.inj (hs.symm.trans hsplit.stored)
  obtain ⟨-, hbefore⟩ := hsound.clock hsplit.live
  have hrate := hsound.rate
  have hlasts : 1 ≤ ((splitDeposit s streamed amount.val).tdiv s.flowRate).toNat := by
    have hleft := hsplit.left
    rw [Int.tdiv_eq_ediv_of_nonneg (by omega)]
    have hone : 1 ≤ splitDeposit s streamed amount.val / s.flowRate :=
      (Int.le_ediv_iff_mul_le (by omega)).mpr (by omega)
    omega
  have hdue : (s.status = .paused → s.lastPauseTime = env.now) ↔ s.clock env.now = env.now := by
    by_cases hpaused : s.status = .paused
    · simp [Stream.clock, hpaused]
    · simp [Stream.clock, hpaused]
  refine ⟨_, Finmap.lookup_insert _, ?_⟩
  rw [hdue]
  constructor
  · intro hvests
    have hzero := hvests [] _ env 0 .nil (Finmap.lookup_insert _) le_rfl rfl (Nat.zero_le _)
    rw [splitSuccessor_claimable (hsound.split_sound hsplit) (Finmap.lookup_insert _) hbefore] at hzero
    have hflow := (Outcome.ok.inj hzero).1
    simp only [Nat.cast_zero, mul_zero, mul_eq_zero] at hflow
    omega
  · intro hclock events c' env' x hrun hstored hnow' htime hlast
    change env'.now = env.now + x at htime
    have hlater := reached_accounts (hreached.run hrun) _ _ hstored
    rw [splitSuccessor_claimable hlater.2 hstored (by omega)]
    have hend : x ≤ ((splitDeposit s streamed amount.val).tdiv s.flowRate).toNat := by
      simpa [splitSuccessor, successor] using hlast
    rw [hclock, htime, Nat.add_min_add_left, min_eq_left hend, Nat.add_sub_cancel_left]
    rfl

namespace Sample

def halted : Chain := genesis.after [opening 0 0, call [2] 1010 (.pauseStream streamId (party 2))]

end Sample

theorem sample_successor_vests : ∃ successor,
    (Sample.split 3010 10000 Sample.halted.world).book.streams.lookup 5620000 = some successor ∧
      (VestsFromNow Sample.site ⟨Sample.split 3010 10000 Sample.halted.world, 3010⟩ 5620000 successor ↔
        (StreamStatus.paused = .paused → 1010 = 3010)) := by
  have hreached : Reached Sample.site Sample.halted := reached_after Sample.genesis_fresh (by decide)
  have hstored : Sample.halted.world.book.streams.lookup Sample.streamId =
      some { createdStream Sample.site (Sample.terms 0 0) 10 with status := .paused, lastPauseTime := 1010 } := by
    decide +kernel
  have hok : partialCancelStream Sample.streamId (Sample.party 2) (⟨10000, by decide⟩ : I128).val
      (Sample.signed [2] 3010) Sample.halted.world = .ok 5620000 (Sample.split 3010 10000 Sample.halted.world) :=
    Outcome.ok_commit (by decide +kernel) _
  exact successor_vests_iff (Sample.signed [2] 3010) hreached (by decide) hstored hok

/-- The successor of a stream paused at 1010 has vested 2000 seconds of flow the moment
it is made, at 3010. -/
theorem successor_vests_pause :
    Reached Sample.site Sample.halted ∧
    (Sample.halted.world.book.streams.lookup Sample.streamId).map Stream.status = some .paused ∧
    (partialCancelStream Sample.streamId (Sample.party 2) 10000 (Sample.signed [2] 3010)
      Sample.halted.world).value? = some 5620000 ∧
    (getClaimable 5620000 (Sample.signed [2] 3010) (Sample.split 3010 10000 Sample.halted.world)).value? =
      some 50000 :=
  ⟨reached_after Sample.genesis_fresh (by decide), by decide +kernel, by decide +kernel, by decide +kernel⟩

end SoroStream
