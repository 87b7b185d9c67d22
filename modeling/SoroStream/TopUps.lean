import SoroStream.Splitting

namespace SoroStream

open Lib Lib.Rollback Lib.Rollback.Prog Lib.Runs Contract

variable {host : Host} {env : Env host} {w w' : World} {c : Chain} {id : StreamId} {s q : Stream} {now t : Nat}
  {caller token : Address} {added : Int}

def Stream.vested (s : Stream) (t : Nat) : Int := if s.cliffTime ≤ t then flowed s t else 0

theorem getClaimable_live (h : Sound now s) (hs : w.book.streams.lookup id = some s) (hlive : s.Live) :
    getClaimable id env w = .ok (s.vested (s.clock env.now)) w := by
  rw [getClaimable_eq h hs, Stream.vested]
  simp only [hlive, true_and]

def Stream.vestedOf (s : Stream) (added : Int) (start t : Nat) : Int :=
  s.flowRate * (((min t (start + (added / s.flowRate).toNat) : Nat) : Int) - (min t start : Nat))

/-- A top-up in the ledger time of `env` takes `added` tokens, keeps the remainder that
never flows, leaves what can be claimed as it is, and from then on lets the new tokens
flow after the old ones. -/
structure AddsFutureOnly (host : Host) (env : Env host) (w w' : World) (id : StreamId) (s q : Stream)
    (caller : Address) (added : Int) : Prop where
  taken : w'.log = w.log ++ [⟨s.token, caller, host.contract, added, .topUp s.id⟩]
  moved : w'.balances = w.balances.move ⟨s.token, caller, host.contract, added, .topUp s.id⟩
  deposit : q.deposit = s.deposit + added
  remainder : q.deposit - q.flowRate * ((q.endTime : Int) - q.startTime) =
    s.deposit - s.flowRate * ((s.endTime : Int) - s.startTime)
  now : (getClaimable id env w').value? = (getClaimable id env w).value?
  onward : ∀ t, s.clock env.now ≤ t →
    q.vested t = s.vested t + s.vestedOf added (max s.endTime (s.clock env.now)) t
  later : ∀ (events : List (Event host)) (c' : Chain) (env' : Env host), SystemRun host ⟨w', env.now⟩ events c' →
    c'.world.book.streams.lookup id = some q → c'.now ≤ env'.now →
    getClaimable id env' c'.world = .ok (s.vested (s.clock env'.now) +
      s.vestedOf added (max s.endTime (s.clock env.now)) (s.clock env'.now)) c'.world

theorem TopUp.seconds_eq {amount : Int} (h : TopUp env w id s caller amount) :
    ((topUpAmount s amount).tdiv s.flowRate).toNat = (topUpAmount s amount / s.flowRate).toNat ∧
      s.flowRate * ((topUpAmount s amount / s.flowRate).toNat : Int) = topUpAmount s amount ∧
      1 ≤ (topUpAmount s amount / s.flowRate).toNat := by
  have hwant := h.wanted
  have hdiv : (topUpAmount s amount).tdiv s.flowRate = topUpAmount s amount / s.flowRate :=
    Int.tdiv_eq_ediv_of_nonneg hwant.le
  have hforward := h.forward
  rw [hdiv] at hforward
  have hwhole : s.flowRate * (topUpAmount s amount / s.flowRate) = topUpAmount s amount := by
    rw [← hdiv, topUpAmount_eq, Int.mul_tdiv_cancel_left _ h.rate]
  refine ⟨by rw [hdiv], by rw [Int.toNat_of_nonneg hforward, hwhole], ?_⟩
  have hne : topUpAmount s amount / s.flowRate ≠ 0 := by
    intro hzero
    rw [hzero, mul_zero] at hwhole
    omega
  omega

theorem vested_extended (h : Sound now s) (x t : Nat) (hdeposit : Int) :
    ({ s with endTime := s.endTime + x, deposit := hdeposit } : Stream).vested t =
      s.vested t + s.flowRate * (((min t (s.endTime + x) : Nat) : Int) - (min t s.endTime : Nat)) := by
  have hcliff := h.cliff
  have hstop := h.stopped
  by_cases hopen : s.cliffTime ≤ t
  · have hold : s.vested t = flowed s t := if_pos hopen
    have hnew : ({ s with endTime := s.endTime + x, deposit := hdeposit } : Stream).vested t =
        s.flowRate * ((min t (s.endTime + x) - s.lastWithdrawTime : Nat) : Int) := if_pos hopen
    rw [hold, hnew, flowed, ← mul_add]
    congr 1
    omega
  · have hold : s.vested t = 0 := if_neg hopen
    have hnew : ({ s with endTime := s.endTime + x, deposit := hdeposit } : Stream).vested t = 0 := if_neg hopen
    have hsame : ((min t (s.endTime + x) : Nat) : Int) - (min t s.endTime : Nat) = 0 := by omega
    rw [hold, hnew, hsame, mul_zero, add_zero]

namespace TopUp

variable {amount : Int}

theorem vested (h : TopUp env w id s caller amount) (hs : Sound now s) (t : Nat) :
    (s.toppedUp (topUpAmount s amount)).vested t = s.vested t + s.vestedOf (topUpAmount s amount) s.endTime t := by
  rw [Stream.vestedOf, ← h.seconds_eq.1]
  exact vested_extended hs _ t (s.deposit + topUpAmount s amount)

theorem remainder (h : TopUp env w id s caller amount) :
    (s.toppedUp (topUpAmount s amount)).deposit - (s.toppedUp (topUpAmount s amount)).flowRate *
        (((s.toppedUp (topUpAmount s amount)).endTime : Int) - (s.toppedUp (topUpAmount s amount)).startTime) =
      s.deposit - s.flowRate * ((s.endTime : Int) - s.startTime) := by
  obtain ⟨hseconds, hwhole, -⟩ := h.seconds_eq
  have hsplit : s.flowRate * ((s.endTime : Int) + (topUpAmount s amount / s.flowRate).toNat - s.startTime) =
      s.flowRate * ((s.endTime : Int) - s.startTime) + topUpAmount s amount :=
    calc s.flowRate * ((s.endTime : Int) + (topUpAmount s amount / s.flowRate).toNat - s.startTime)
        = s.flowRate * ((s.endTime : Int) - s.startTime) +
            s.flowRate * ((topUpAmount s amount / s.flowRate).toNat : Int) := by ring
      _ = s.flowRate * ((s.endTime : Int) - s.startTime) + topUpAmount s amount := by rw [hwhole]
  simp only [Stream.toppedUp, hseconds, Nat.cast_add, hsplit]
  ring

end TopUp

theorem vestedOf_early {start : Nat} (h : t ≤ start) : s.vestedOf added start t = 0 := by
  have hzero : ((min t (start + (added / s.flowRate).toNat) : Nat) : Int) - (min t start : Nat) = 0 := by omega
  rw [Stream.vestedOf, hzero, mul_zero]

theorem vestedOf_late {start : Nat} (hrate : 1 ≤ s.flowRate) (hadded : 1 ≤ (added / s.flowRate).toNat) (h : start < t) :
    s.vestedOf added start t ≠ 0 := by
  have hpos : 0 < ((min t (start + (added / s.flowRate).toNat) : Nat) : Int) - (min t start : Nat) := by omega
  exact (Int.mul_pos (by omega) hpos).ne'

theorem reached_topUp (h : Reached host c) (hnow : c.now ≤ env.now) {amount : I128}
    (hok : topUp id caller token amount.val env c.world = .ok () w') : Reached host ⟨w', env.now⟩ := by
  have hexec : (StreamCall.topUp id caller token amount).exec env c.world = .ok [] w' := bind_ok.mpr ⟨(), w', hok, rfl⟩
  rw [← step_of_ok hexec]
  exact h.next ⟨hnow, trivial⟩

/-- A top-up adds nothing but future vesting exactly when the clock of the stream has
not passed the end that the call puts off. -/
theorem top_up_future_only_iff (env : Env host) (h : Reached host c) (hnow : c.now ≤ env.now)
    (hs : c.world.book.streams.lookup id = some s) {amount : I128}
    (hok : topUp id caller token amount.val env c.world = .ok () w') :
    let tau := if s.status = .paused then s.lastPauseTime else env.now
    ∃ q, w'.book.streams.lookup id = some q ∧
      (AddsFutureOnly host env c.world w' id s q caller (amount.val - amount.val.tmod s.flowRate) ↔
        tau ≤ s.endTime) := by
  intro tau
  obtain ⟨hid, hsound⟩ := ((reached_accounts h).mono hnow) id s hs
  have hreached := reached_topUp h hnow hok
  obtain ⟨-, r, -, ht, rfl⟩ := topUp_ok hok
  obtain rfl := Option.some.inj (hs.symm.trans ht.stored)
  change ∃ q, _ ∧ (AddsFutureOnly host env c.world _ id s q caller (topUpAmount s amount.val) ↔ _)
  have hstored : (((c.world.awake env.now).pay [topUpTransfer host s caller (topUpAmount s amount.val)]).withBook
      (c.world.book.save (s.toppedUp (topUpAmount s amount.val)))).book.streams.lookup id =
      some (s.toppedUp (topUpAmount s amount.val)) := by
    rw [withBook_book, Book.save_streams, Stream.toppedUp, hid, Finmap.lookup_insert]
  have hnew := hsound.toppedUp ht
  have hvested := ht.vested hsound
  refine ⟨_, hstored, ?_, ?_⟩
  · intro hadds
    by_contra hlate
    have hsame := hadds.now
    rw [getClaimable_live hnew hstored ht.live, getClaimable_live hsound hs ht.live] at hsame
    have hgrown : s.vested tau + _ = s.vested tau := (hvested tau).symm.trans (Option.some.inj hsame)
    exact vestedOf_late hsound.rate ht.seconds_eq.2.2 (not_le.mp hlate) (by omega)
  · intro htau
    have hend : max s.endTime (s.clock env.now) = s.endTime := max_eq_left htau
    refine ⟨rfl, rfl, rfl, ht.remainder, ?_, ?_, ?_⟩
    · rw [getClaimable_live hnew hstored ht.live, getClaimable_live hsound hs ht.live]
      have hsame := hvested (s.clock env.now)
      have hearly : s.clock env.now ≤ s.endTime := htau
      rw [vestedOf_early hearly, add_zero] at hsame
      exact congrArg some hsame
    · intro t _
      rw [hend]
      exact hvested t
    · intro events c' env' hrun hstored' hnow'
      have hlater := (reached_accounts (hreached.run hrun) _ _ hstored').2
      rw [getClaimable_live hlater hstored' ht.live, hend]
      exact congrArg (Outcome.ok · _) (hvested (s.clock env'.now))

namespace Sample

def toppedUp (time : U64) (w : World) : World :=
  (topUp streamId (party 2) (party 9) 5010 (signed [2] time) w).commit w

end Sample

theorem sample_top_up_future_only : ∃ q,
    (Sample.toppedUp 2010 (Sample.genesis.after [Sample.opening 0 0]).world).book.streams.lookup Sample.streamId =
      some q ∧
    (AddsFutureOnly Sample.site (Sample.signed [2] 2010) (Sample.genesis.after [Sample.opening 0 0]).world
      (Sample.toppedUp 2010 (Sample.genesis.after [Sample.opening 0 0]).world) Sample.streamId
      (createdStream Sample.site (Sample.terms 0 0) 10) q (Sample.party 2) 5000 ↔ 2010 ≤ 4010) := by
  have hreached : Reached Sample.site (Sample.genesis.after [Sample.opening 0 0]) :=
    reached_after Sample.genesis_fresh (by decide)
  have hstored : (Sample.genesis.after [Sample.opening 0 0]).world.book.streams.lookup Sample.streamId =
      some (createdStream Sample.site (Sample.terms 0 0) 10) := by decide
  have hok : topUp Sample.streamId (Sample.party 2) (Sample.party 9) (⟨5010, by decide⟩ : I128).val
      (Sample.signed [2] 2010) (Sample.genesis.after [Sample.opening 0 0]).world =
      .ok () (Sample.toppedUp 2010 (Sample.genesis.after [Sample.opening 0 0]).world) :=
    Outcome.ok_commit (by decide +kernel) _
  exact top_up_future_only_iff (Sample.signed [2] 2010) hreached (by decide) hstored hok

theorem late_top_up_vests :
    Reached Sample.site (Sample.genesis.after [Sample.opening 0 0]) ∧
    ((Sample.genesis.after [Sample.opening 0 0]).world.book.streams.lookup Sample.streamId).map Stream.status =
      some .active ∧
    (topUp Sample.streamId (Sample.party 2) (Sample.party 9) 5010 (Sample.signed [2] 4110)
      (Sample.genesis.after [Sample.opening 0 0]).world).value? = some () ∧
    (getClaimable Sample.streamId (Sample.signed [2] 4110)
      (Sample.genesis.after [Sample.opening 0 0]).world).value? = some 100000 ∧
    (getClaimable Sample.streamId (Sample.signed [2] 4110)
      (Sample.toppedUp 4110 (Sample.genesis.after [Sample.opening 0 0]).world)).value? = some 102500 :=
  ⟨reached_after Sample.genesis_fresh (by decide), by decide +kernel, by decide +kernel, by decide +kernel,
    by decide +kernel⟩

end SoroStream
