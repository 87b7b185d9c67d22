import SoroStream.Solvency

namespace SoroStream

open Lib Lib.Rollback Lib.Rollback.Prog Contract

variable {host : Host} {env : Env host} {w w' : World} {id : StreamId} {s : Stream} {now : Nat} {amount : Int}

/-- Tokens let the contract spend what it has. -/
def Honours (env : Env host) : Prop :=
  ∀ b t, t.payer = host.contract → 0 ≤ t.amount → t.amount ≤ b t.token t.payer → env.accepts b t = true

def Passes (env : Env host) (t : Transfer) : Prop :=
  ∀ b : Balances, 0 ≤ t.amount → t.amount ≤ b t.token t.payer → env.accepts b t = true

theorem Honours.passes {t : Transfer} (h : Honours env) (hpayer : t.payer = host.contract) : Passes env t :=
  fun b => h b t hpayer

/-- The call succeeds: `share` goes to the recipient, what else is left to the
sender, and the record is gone. -/
structure ExitsWith (x : Contract host Unit) (env : Env host) (w : World) (id : StreamId) (s : Stream)
    (share rest : Int) : Prop where
  share_nonneg : 0 ≤ share
  rest_nonneg : 0 ≤ rest
  total : share + rest = s.deposit - s.totalWithdrawn
  succeeds : ∃ w', x env w = .ok () w' ∧
    let paid := positive ⟨s.token, host.contract, s.recipient, share, .claim s.id⟩ ++
      positive ⟨s.token, host.contract, s.sender, rest, .refund s.id⟩
    w'.log = w.log ++ paid ∧ w'.balances = paid.foldl Balances.move w.balances ∧
      w'.book.streams = w.book.streams.erase id

theorem debt_le_debts (h : Accounts now w.book.streams) (hs : w.book.streams.lookup id = some s)
    (token : Address) : debt token s ≤ debts w.book.streams token :=
  Escrow.weight_le_total (fun j b hb => debt_nonneg (h j b hb).2.toAccounted token) hs

theorem Solvent.remaining_le (h : Solvent host now w) (hs : w.book.streams.lookup id = some s)
    (hlive : s.Live) : s.remaining ≤ w.balances s.token host.contract := by
  have hdebt := debt_le_debts h.accounts hs s.token
  rw [debt_of_live hlive, if_pos rfl] at hdebt
  exact hdebt.trans (h.covered s.token)

theorem flowed_eq (h : Accounted now s) {tau : Nat} (hafter : s.lastWithdrawTime ≤ tau) :
    flowed s tau = s.flowRate * (((min tau s.endTime : Nat) : Int) - s.lastWithdrawTime) := by
  rw [flowed, Nat.cast_sub (le_min hafter h.stopped)]

/-- The product of a share fits its width: it is covered by the deposit. -/
theorem Sound.checked_flow (h : Sound now s) (t : Nat) :
    checkedMulI128 s.flowRate ((min t s.endTime - s.lastWithdrawTime : Nat) : Int) = some (flowed s t) := by
  have hnonneg := flowed_nonneg h.rate t
  have hle := h.toAccounted.flowed_le_remaining t
  have hwithdrawn := h.withdrawn_nonneg
  have hmax := h.deposit_max
  have hmin : i128Min ≤ 0 := by decide
  simp only [Stream.remaining, flowed] at hnonneg hle
  exact Checked.inRange_of_mem (by omega) (by omega)

theorem Sound.earnedAt_eq_some (h : Sound now s) (t : Nat) : earnedAt s t = some (flowed s t) := by
  simpa only [earnedAt, VestingMath.computeEarned, if_lt_eq_min] using h.checked_flow t

theorem Sound.claimableAt_eq_some (h : Sound now s) (t : Nat) :
    claimableAt s t = some (if s.cliffTime ≤ t then flowed s t else 0) := by
  simp only [claimableAt, VestingMath.computeClaimable, if_lt_eq_min]
  by_cases hc : t < s.cliffTime
  · rw [if_pos hc, if_neg (not_le.mpr hc)]
  · rw [if_neg hc, if_pos (not_lt.mp hc)]
    exact h.checked_flow t

theorem getClaimable_eq (h : Sound now s) (hs : w.book.streams.lookup id = some s) :
    getClaimable id env w =
      .ok (if s.Live ∧ s.cliffTime ≤ s.clock env.now then flowed s (s.clock env.now) else 0) w := by
  have hload : getStream id env w = .ok s w := by
    simp [getStream, ask, Storage.loadStream, hs]
  rw [getClaimable, bind_apply hload]
  by_cases hlive : s.Live
  · rw [if_neg (not_not.mpr hlive)]
    have htime : timestamp env w = .ok env.now w := rfl
    rw [bind_apply htime]
    by_cases hcliff : s.clock env.now < s.cliffTime
    · rw [if_pos hcliff, if_neg fun hopen => absurd hopen.2 (not_le.mpr hcliff)]
      rfl
    · have hclaim := h.claimableAt_eq_some (s.clock env.now)
      rw [if_pos (not_lt.mp hcliff), claimableAt] at hclaim
      rw [if_neg hcliff, hclaim, if_pos ⟨hlive, not_lt.mp hcliff⟩]
      rfl
  · rw [if_pos hlive, if_neg fun hopen => absurd hopen.1 hlive]
    rfl

theorem closing_held (h : Solvent host now w) (hs : w.book.streams.lookup id = some s) (hlive : s.Live)
    (hpos : 0 ≤ amount) (hle : amount ≤ s.remaining) :
    amount ≤ w.balances s.token host.contract ∧
      refundOf s amount ≤ (w.pay (positive (claimTransfer host s amount))).balances s.token host.contract := by
  have hpot := h.remaining_le hs hlive
  have hrefund := refundOf_eq (h.accounts id s hs).2 hpos hle
  have hback : 0 ≤ received host.contract s.token (positive (claimTransfer host s amount)) :=
    received_nonneg fun t ht => amount_nonneg_of_mem_positive ht
  refine ⟨hle.trans hpot, ?_⟩
  rw [pay_balances, spent_positive, if_pos ⟨rfl, rfl⟩, hrefund]
  simp only [claimTransfer] at hback ⊢
  omega

theorem covered_of_passes (h : Solvent host now w) (hs : w.book.streams.lookup id = some s) (hlive : s.Live)
    (htoken : ∀ t ∈ closingTransfers host s amount, Passes env t) (hpos : 0 ≤ amount) (hle : amount ≤ s.remaining) :
    Covered env w s amount := by
  obtain ⟨hshare, hleft⟩ := closing_held h hs hlive hpos hle
  constructor
  · intro hdue
    exact ⟨hpos, hshare, htoken _ (List.mem_append_left _ (self_mem_positive hdue)) _ hpos hshare⟩
  · intro hrest
    exact ⟨hrest.le, hleft, htoken _ (List.mem_append_right _ (self_mem_positive hrest)) _ hrest.le hleft⟩

/-- Both shares of a closing pass when tokens honour the pot. -/
theorem covered_of_solvent (h : Solvent host now w) (hs : w.book.streams.lookup id = some s) (hlive : s.Live)
    (htoken : Honours env) (hpos : 0 ≤ amount) (hle : amount ≤ s.remaining) : Covered env w s amount := by
  refine covered_of_passes h hs hlive ?_ hpos hle
  intro t ht
  rcases List.mem_append.mp ht with ht | ht <;> exact htoken.passes (by rw [mem_positive ht]; rfl)

theorem exits_of_closed {x : Contract host Unit} (hw : Solvent host now w)
    (hs : w.book.streams.lookup id = some s) (hpos : 0 ≤ amount) (hle : amount ≤ s.remaining) {v : World}
    (hv : v.log = w.log ∧ v.balances = w.balances ∧ v.book = w.book)
    (hx : x env w = .ok () (closed host v id s amount)) :
    ExitsWith x env w id s amount (s.remaining - amount) := by
  obtain ⟨hlog, hbalances, hbook⟩ := hv
  have hrefund := refundOf_eq (hw.accounts id s hs).2 hpos hle
  refine ⟨hpos, by omega, by simp only [Stream.remaining]; omega, _, hx, ?_, ?_, ?_⟩
  · simp only [closed, withBook_log, pay_log, closingTransfers, claimTransfer, refundTransfer, hrefund, hlog]
  · simp only [closed, withBook_balances, World.pay, closingTransfers, claimTransfer, refundTransfer, hrefund,
      hbalances]
  · simp only [closed, withBook_book, Book.close_streams, hbook]

theorem cancelStream_overflow {caller : Address} (h : cancelStream id caller env w = .err .overflow w') :
    ∃ s, w.book.streams.lookup id = some s ∧ s.Live ∧ earnedAt s (s.clock env.now) = none := by
  simp only [cancelStream, requireSenderOrDelegate, requireAuth, timestamp, ask, read_bind, bind_eq_err, okOr_ok,
    okOr_err, failIf_ok, failIf_err, haltIf_ok, haltIf_err, payOutAndClose_err, reduceCtorEq, not_not, false_and,
    and_false, false_or, or_false, exists_false, exists_const, true_and, and_assoc, exists_and_left,
    exists_eq_left'] at h
  obtain ⟨-, s, hs, -, hlive, hnone, -⟩ := h
  exact ⟨s, hs, hlive, hnone⟩

theorem recipientTerminate_overflow {recipient : Address}
    (h : recipientTerminate id recipient env w = .err .overflow w') :
    ∃ s, w.book.streams.lookup id = some s ∧ s.Live ∧ claimableAt s (s.clock env.now) = none := by
  simp only [recipientTerminate, requireRunning, requireAuth, timestamp, ask, read_bind, bind_eq_err, bind_ok, okOr_ok,
    okOr_err, failIf_ok, failIf_err, haltIf_ok, haltIf_err, payOutAndClose_err, reduceCtorEq,
    isPausedOrAutoUnpause_run, Outcome.ok.injEq, not_not, false_and, and_false, false_or, or_false, exists_false,
    exists_const, true_and, and_assoc, exists_and_left, exists_eq_left'] at h
  obtain ⟨-, -, s, hs, -, -, hlive, hnone, -⟩ := h
  exact ⟨s, hs, hlive, hnone⟩

theorem cancelStream_closes (hw : Solvent host env.now w) (hs : w.book.streams.lookup id = some s)
    (hlive : s.Live) (htoken : Honours env) (hauth : env.auths s.sender = true) :
    cancelStream id s.sender env w = .ok () (closed host w id s (flowed s (s.clock env.now))) := by
  have hsound := (hw.accounts id s hs).2
  have hcov := covered_of_solvent hw hs hlive htoken (flowed_nonneg hsound.rate (s.clock env.now))
    (hsound.toAccounted.flowed_le_remaining (s.clock env.now))
  exact cancelStream_ok.mpr ⟨hauth, s, _, hs, .inl rfl, hlive, hsound.earnedAt_eq_some _, hcov, rfl⟩

theorem cancelStream_exits (h : Solvent host env.now w) (hs : w.book.streams.lookup id = some s)
    (hlive : s.Live) (htoken : Honours env) (hauth : env.auths s.sender = true) :
    ExitsWith (cancelStream id s.sender) env w id s (flowed s (s.clock env.now))
      (s.remaining - flowed s (s.clock env.now)) := by
  have hsound := (h.accounts id s hs).2
  have hpos := flowed_nonneg hsound.rate (s.clock env.now)
  have hle := hsound.toAccounted.flowed_le_remaining (s.clock env.now)
  exact exits_of_closed h hs hpos hle ⟨rfl, rfl, rfl⟩ (cancelStream_closes h hs hlive htoken hauth)

theorem recipientTerminate_exits (h : Solvent host env.now w) (hs : w.book.streams.lookup id = some s)
    (hlive : s.Live) (htoken : Honours env) (hauth : env.auths s.recipient = true)
    (hallow : s.allowRecipientTermination = true) (hrun : w.pause.pausedAt env.now = false) :
    ExitsWith (recipientTerminate id s.recipient) env w id s
      (if s.cliffTime ≤ s.clock env.now then flowed s (s.clock env.now) else 0)
      (s.remaining - if s.cliffTime ≤ s.clock env.now then flowed s (s.clock env.now) else 0) := by
  have hsound := (h.accounts id s hs).2
  have hawake : Solvent host env.now (w.awake env.now) := ⟨h.accounts, h.fees, h.covered⟩
  have hbounds : 0 ≤ (if s.cliffTime ≤ s.clock env.now then flowed s (s.clock env.now) else 0) ∧
      (if s.cliffTime ≤ s.clock env.now then flowed s (s.clock env.now) else 0) ≤ s.remaining := by
    split
    · exact ⟨flowed_nonneg hsound.rate _, hsound.toAccounted.flowed_le_remaining _⟩
    · exact ⟨le_rfl, hsound.toAccounted.remaining_nonneg⟩
  have hcov := covered_of_solvent hawake hs hlive htoken hbounds.1 hbounds.2
  refine exits_of_closed h hs hbounds.1 hbounds.2 (v := w.awake env.now) ⟨rfl, rfl, rfl⟩ ?_
  refine recipientTerminate_ok.mpr ⟨hrun, hauth, s, _, hs, rfl, hallow, hlive, ?_, hcov, rfl⟩
  exact hsound.claimableAt_eq_some _

/-- A live stream can always be left: by its sender through `cancel_stream`, and
by its recipient through `recipient_terminate` where the stream allows it. The
shares are exact, and neither call overflows for anybody. -/
theorem exit_available (env : Env host) {c : Chain} (h : Reached host c) (hnow : c.now ≤ env.now)
    (hs : c.world.book.streams.lookup id = some s) (hlive : s.Live) (htoken : Honours env) :
    let tau := if s.status = .paused then s.lastPauseTime else env.now
    let share := s.flowRate * (((min tau s.endTime : Nat) : Int) - s.lastWithdrawTime)
    let granted := if s.cliffTime ≤ tau then share else 0
    (env.auths s.sender = true → ExitsWith (cancelStream id s.sender) env c.world id s share
      (s.deposit - s.totalWithdrawn - share)) ∧
    (env.auths s.recipient = true → s.allowRecipientTermination = true →
      c.world.pause.pausedAt env.now = false →
      ExitsWith (recipientTerminate id s.recipient) env c.world id s granted
        (s.deposit - s.totalWithdrawn - granted)) ∧
    (∀ caller w', cancelStream id caller env c.world ≠ .err .overflow w') ∧
    ∀ recipient w', recipientTerminate id recipient env c.world ≠ .err .overflow w' := by
  have hw : Solvent host env.now c.world := aside_solvent hnow (.refl _) (reached_solvent h)
  have hsound := (hw.accounts id s hs).2
  have hflow := flowed_eq hsound.toAccounted (hsound.clock hlive).1
  refine ⟨?_, ?_, ?_, ?_⟩
  · intro hauth
    have hexit := cancelStream_exits hw hs hlive htoken hauth
    rw [hflow] at hexit
    exact hexit
  · intro hauth hallow hrun
    have hexit := recipientTerminate_exits hw hs hlive htoken hauth hallow hrun
    rw [hflow] at hexit
    exact hexit
  · intro caller w' herr
    obtain ⟨r, hr, -, hnone⟩ := cancelStream_overflow herr
    rw [(hw.accounts id r hr).2.earnedAt_eq_some] at hnone
    exact absurd hnone (Option.some_ne_none _)
  · intro recipient w' herr
    obtain ⟨r, hr, -, hnone⟩ := recipientTerminate_overflow herr
    rw [(hw.accounts id r hr).2.claimableAt_eq_some] at hnone
    exact absurd hnone (Option.some_ne_none _)

theorem sample_exit_available : ∃ s,
    (Sample.genesis.after [Sample.opening 500 0]).world.book.streams.lookup Sample.streamId = some s ∧
      ExitsWith (cancelStream Sample.streamId s.sender) (Sample.signed [2] 2010)
        (Sample.genesis.after [Sample.opening 500 0]).world Sample.streamId s 50000 50000 := by
  have hreached : Reached Sample.site (Sample.genesis.after [Sample.opening 500 0]) :=
    reached_after Sample.genesis_fresh (by decide)
  have hstored : (Sample.genesis.after [Sample.opening 500 0]).world.book.streams.lookup Sample.streamId =
      some (createdStream Sample.site (Sample.terms 500 0) 10) := by decide
  refine ⟨_, hstored, ?_⟩
  exact (exit_available (Sample.signed [2] 2010) hreached (by decide) hstored (by decide)
    fun _ _ _ _ _ => rfl).1 (by decide)

end SoroStream
