import SoroStream.Vault
import SoroStream.System
import SoroStream.Lib.Tally

namespace SoroStream

open Lib Lib.Rollback Lib.Rollback.Prog Lib.Runs TreasuryContract

variable {host : Host} {env : Env host} {w w' w₀ : World} {ts : List Transfer} {u : Unit}
  {token destination : Address} {amount : Int} {invoker : Option Address} {booked : Address → Int}

inductive TreasuryEvent (host : Host)
  | call (env : Env host) (invoker : Option Address) (c : TreasuryContract.Call)
  | tokens (balances : Balances)

def World.treasuryStep (w : World) : TreasuryEvent host → World
  | .call env invoker c => (c.exec invoker env w).commit w
  | .tokens b => { w with balances := b }

def TreasuryEvent.Fair : TreasuryEvent host → Prop
  | .call _ _ (.deposit _ amount) => 0 ≤ amount.val
  | _ => True

def World.deposits (w : World) : TreasuryEvent host → List (Address × Int)
  | .call env _ (.deposit token amount) =>
      if (TreasuryContract.deposit token amount.val env w).value?.isSome then [(token, amount.val)] else []
  | _ => []

abbrev TreasuryRun (host : Host) (w : World) (events : List (TreasuryEvent host)) (w' : World) : Prop :=
  Run (fun _ e => e.Fair) World.treasuryStep w events w'

theorem treasuryRun_of {events : List (TreasuryEvent host)} (h : ∀ e ∈ events, e.Fair) (w : World) :
    TreasuryRun host w events (events.foldl World.treasuryStep w) := by
  induction events generalizing w with
  | nil => exact .nil
  | cons e events ih =>
      have hfirst : TreasuryRun host w [e] (w.treasuryStep e) := Run.snoc .nil (h e (by simp))
      exact hfirst.append (ih (fun e he => h e (by simp [he])) _)

structure BooksKept (host : Host) (booked : Address → Int) (w : World) : Prop where
  nonneg : ∀ token, 0 ≤ tracked w token
  share : readTreasurySplitBps w.treasury ≤ 10000
  total : ∀ token, booked token = tracked w token + paidOut host token w.log

theorem BooksKept.sound (h : BooksKept host booked w) : BooksSound w := ⟨h.nonneg, h.share⟩

theorem Releases.kept (h : Releases host w w') (hw : BooksKept host booked w) : BooksKept host booked w' := by
  obtain ⟨ts, hts⟩ := h hw.sound
  refine ⟨hts.sound.nonneg, hts.sound.share, ?_⟩
  intro token
  have htotal := hw.total token
  have hbooked := hts.booked token
  rw [paidOut, hts.log, spent_append]
  change booked token = tracked w token + spent host.treasury token w.log at htotal
  omega

/-- What a distribution of a token leaves: its books are split in two parts and paid. -/
structure Distributed (host : Host) (w w' : World) (token destination : Address) (v : Int × Int) : Prop where
  share : v.1 = tracked w token * readTreasurySplitBps w.treasury / 10000
  rest : v.2 = tracked w token - v.1
  nonneg : 0 ≤ v.1 ∧ 0 ≤ v.2
  pool : 0 < v.2 → w.treasury.lpPool.isSome
  paid : ∃ ts, ts = positive (payout host token destination v.1) ++
      w.treasury.lpPool.elim [] (fun pool => positive (payout host token pool v.2)) ∧
    w'.log = w.log ++ ts ∧ w'.balances = ts.foldl Balances.move w.balances
  zeroed : tracked w' token = 0
  others : ∀ other, other ≠ token → tracked w' other = tracked w other
  cells : w'.treasury.admin = w.treasury.admin ∧ w'.treasury.lpPool = w.treasury.lpPool ∧
    w'.treasury.splitBps = w.treasury.splitBps

theorem positive_of_pos {t : Transfer} (h : 0 < t.amount) : positive t = [t] := if_pos h

theorem pool_nothing (pool : Option Address) :
    pool.elim [] (fun pool => positive (payout host token pool 0)) = [] := by
  cases pool <;> rfl

theorem BooksKept.share_eq (h : BooksKept host booked w) (token : Address) :
    treasuryShare w token = tracked w token * readTreasurySplitBps w.treasury / 10000 :=
  Int.tdiv_eq_ediv_of_nonneg (Int.mul_nonneg (h.nonneg token) (Int.natCast_nonneg _))

theorem withTracked_zeroed (w : World) (token : Address) (ts : List Transfer) :
    tracked ((w.withTracked token none).pay ts) token = 0 := by
  change tracked (w.withTracked token none) token = 0
  rw [withTracked_tracked, if_pos rfl]
  rfl

theorem withTracked_others {other : Address} (hne : other ≠ token) (w : World) (ts : List Transfer) :
    tracked ((w.withTracked token none).pay ts) other = tracked w other := by
  change tracked (w.withTracked token none) other = tracked w other
  rw [withTracked_tracked, if_neg hne]

theorem distribute_distributed {v : Int × Int} (hw : BooksKept host booked w)
    (h : distribute invoker token destination env w = .ok v w') : Distributed host w w' token destination v := by
  have hbounds := hw.sound.share_bounds token
  have hshare := hw.share_eq token
  obtain ⟨-, ⟨hzero, rfl, rfl⟩ | ⟨-, -, -, -, rfl, hrest⟩⟩ := distribute_ok.mp h
  · refine ⟨by simp [hzero], by simp [hzero], ⟨le_rfl, le_rfl⟩, fun h => absurd h (lt_irrefl 0), ?_, hzero,
      fun _ _ => rfl, rfl, rfl, rfl⟩
    refine ⟨[], ?_, (List.append_nil _).symm, rfl⟩
    rw [pool_nothing, List.append_nil]
    rfl
  · rcases hrest with ⟨hpos, pool, hpool, -, rfl⟩ | ⟨hnone, rfl⟩
    · refine ⟨hshare, rfl, hbounds, fun _ => by rw [hpool]; rfl, ?_, ?_, ?_, rfl, rfl, rfl⟩
      · refine ⟨_, rfl, ?_⟩
        rw [World.shared, pay_pay, hpool, Option.elim_some,
          positive_of_pos (t := payout host token pool (lpShare w token)) hpos]
        exact ⟨rfl, rfl⟩
      · rw [World.shared, pay_pay]
        exact withTracked_zeroed w token _
      · intro other hne
        rw [World.shared, pay_pay]
        exact withTracked_others hne w _
    · have hlast : lpShare w token = 0 := by omega
      refine ⟨hshare, rfl, hbounds, fun h => absurd h hnone, ?_, withTracked_zeroed w token _,
        fun other hne => withTracked_others hne w _, rfl, rfl, rfl⟩
      refine ⟨_, rfl, ?_⟩
      rw [hlast, pool_nothing, List.append_nil]
      exact ⟨rfl, rfl⟩

/-- A part for a pool that is not set, or a product that does not fit, stops a distribution,
and what it had done until then is undone. -/
theorem distribute_undone (h : 0 < lpShare w token ∧ w.treasury.lpPool = none ∨
      i128Max < tracked w token * readTreasurySplitBps w.treasury) :
    (distribute invoker token destination env w).commit w = w := by
  cases hrun : distribute invoker token destination env w with
  | err | trap => rfl
  | ok v w' =>
      exfalso
      obtain ⟨-, ⟨hzero, -, -⟩ | ⟨-, hproduct, -, -, -, hrest⟩⟩ := distribute_ok.mp hrun
      · have hmax : 0 ≤ i128Max := by decide
        simp only [lpShare, treasuryShare, hzero, Int.zero_mul, Int.zero_tdiv] at h
        omega
      · rcases h with ⟨hpos, hpool⟩ | hover
        · rcases hrest with ⟨-, pool, hsome, -⟩ | ⟨hnone, -⟩
          · rw [hpool] at hsome
            cases hsome
          · exact hnone hpos
        · obtain ⟨p, hp⟩ := Option.isSome_iff_exists.mp hproduct
          obtain ⟨hrange, -⟩ := Checked.inRange_eq_some.mp hp
          omega

theorem deposit_kept (hw : BooksKept host booked w) (hamount : 0 ≤ amount)
    (h : TreasuryContract.deposit token amount env w = .ok u w') :
    BooksKept host (fun other => booked other + tally other [(token, amount)]) w' := by
  obtain ⟨-, rfl⟩ := deposit_ok.mp h
  have hsum : ∀ other, tally other [(token, amount)] = if other = token then amount else 0 := by
    intro other
    simp [tally, eq_comm]
  have hnonneg := hw.nonneg token
  refine ⟨?_, hw.share, ?_⟩
  · intro other
    rw [withTracked_tracked]
    split
    · exact Int.add_nonneg hnonneg hamount
    · exact hw.nonneg other
  · intro other
    have htotal := hw.total other
    rw [withTracked_tracked, hsum]
    change booked other + _ = _ + paidOut host other w.log
    split
    · next heq =>
        subst heq
        rw [Option.getD_some]
        omega
    · omega

theorem treasuryStep_kept {e : TreasuryEvent host} (hfair : e.Fair) (hw : BooksKept host booked w) :
    BooksKept host (fun token => booked token + tally token (w.deposits e)) (w.treasuryStep e) := by
  have hsilent : w.deposits e = [] → BooksKept host booked (w.treasuryStep e) →
      BooksKept host (fun token => booked token + tally token (w.deposits e)) (w.treasuryStep e) := by
    intro hnone hkept
    simpa only [hnone, tally, List.map_nil, List.sum_nil, add_zero] using hkept
  cases e with
  | tokens b => exact hsilent rfl ⟨hw.nonneg, hw.share, hw.total⟩
  | call env invoker c =>
      by_cases hdeposit : ∃ token amount, c = .deposit token amount
      · obtain ⟨token, amount, rfl⟩ := hdeposit
        cases hrun : TreasuryContract.deposit token amount.val env w with
        | ok v w' =>
            have hstep : w.treasuryStep (.call env invoker (.deposit token amount)) = w' := by
              simp only [World.treasuryStep, TreasuryContract.Call.exec, hrun, Outcome.commit_ok]
            have hmade : w.deposits (.call env invoker (.deposit token amount)) = [(token, amount.val)] := by
              simp only [World.deposits, hrun, Outcome.value?, Option.isSome_some, if_true]
            rw [hstep, hmade]
            exact deposit_kept hw hfair hrun
        | err | trap =>
            refine hsilent ?_ ?_
            · simp only [World.deposits, hrun, Outcome.value?, Option.isSome_none, Bool.false_eq_true, if_false]
            · simpa only [World.treasuryStep, TreasuryContract.Call.exec, hrun, Outcome.commit_err,
                Outcome.commit_trap] using hw
      · have hother : ∀ token amount, c ≠ .deposit token amount := fun token amount heq => hdeposit ⟨token, amount, heq⟩
        refine hsilent ?_ ((Releases.kept (Keeps.commit (treasuryCall_releases hother) w) hw))
        cases c with
        | deposit token amount => exact absurd rfl (hother token amount)
        | _ => rfl

theorem treasuryRun_kept {events : List (TreasuryEvent host)} (hnew : w₀.treasury = ⟨none, none, none, fun _ => none⟩)
    (hlog : w₀.log = []) (h : TreasuryRun host w₀ events w) :
    BooksKept host (fun token => tally token (outputs World.treasuryStep World.deposits w₀ events)) w := by
  induction h with
  | nil =>
      have hbooks : ∀ token, tracked w₀ token = 0 := by
        intro token
        rw [tracked, hnew]
        rfl
      refine ⟨fun token => (hbooks token).ge, by rw [hnew]; decide, ?_⟩
      intro token
      rw [hbooks, hlog]
      rfl
  | snoc hr hm ih =>
      have hnext := treasuryStep_kept hm ih
      simpa only [hr.outputs_snoc, tally_append] using hnext

/-- Over any calls of the treasury contract, what was deposited is on the books or paid out,
the books are not negative, and a distribution pays out the books of its token to the last
unit and leaves the rest alone, or changes nothing. -/
theorem treasury_conservative {events : List (TreasuryEvent host)}
    (hnew : w₀.treasury = ⟨none, none, none, fun _ => none⟩) (hlog : w₀.log = [])
    (h : TreasuryRun host w₀ events w) :
    (∀ token, tally token (outputs World.treasuryStep World.deposits w₀ events) =
      tracked w token + paidOut host token w.log) ∧
    (∀ token, 0 ≤ tracked w token) ∧
    ∀ (env : Env host) (invoker : Option Address) (token destination : Address),
      (∀ v w', distribute invoker token destination env w = .ok v w' →
        Distributed host w w' token destination v) ∧
      (0 < lpShare w token ∧ w.treasury.lpPool = none ∨
          i128Max < tracked w token * readTreasurySplitBps w.treasury →
        (distribute invoker token destination env w).commit w = w) := by
  have hkept := treasuryRun_kept hnew hlog h
  refine ⟨hkept.total, hkept.nonneg, ?_⟩
  intro env invoker token destination
  exact ⟨fun v w' hrun => distribute_distributed hkept hrun, distribute_undone⟩

/-- Party 8 keeps the treasury, where 101 of token 9 are deposited and split 70 to 30. -/
def Sample.divided : List (TreasuryEvent site) :=
  [.call (signed [] 0) none (.initializeTreasury (party 8)),
    .tokens fun _ a => if a = site.treasury then 101 else 0,
    .call (signed [] 1) none (.deposit (party 9) ⟨101, by decide⟩),
    .call (signed [8] 2) none (.setTreasurySplit 7000),
    .call (signed [8] 3) none (.setLpPool (party 7)),
    .call (signed [8] 4) none (.distribute (party 9) (party 8))]

theorem Sample.divided_fair : ∀ e ∈ divided, e.Fair := by
  simp [divided, TreasuryEvent.Fair]

def Sample.dividedWorld : World := divided.foldl World.treasuryStep genesis.world

theorem sample_treasury_conservative :
    (∀ token, tally token (outputs World.treasuryStep World.deposits Sample.genesis.world Sample.divided) =
      tracked Sample.dividedWorld token + paidOut Sample.site token Sample.dividedWorld.log) ∧
    (∀ token, 0 ≤ tracked Sample.dividedWorld token) ∧
    ∀ (env : Env Sample.site) (invoker : Option Address) (token destination : Address),
      (∀ v w', distribute invoker token destination env Sample.dividedWorld = .ok v w' →
        Distributed Sample.site Sample.dividedWorld w' token destination v) ∧
      (0 < lpShare Sample.dividedWorld token ∧ Sample.dividedWorld.treasury.lpPool = none ∨
          i128Max < tracked Sample.dividedWorld token * readTreasurySplitBps Sample.dividedWorld.treasury →
        (distribute invoker token destination env Sample.dividedWorld).commit Sample.dividedWorld =
          Sample.dividedWorld) :=
  treasury_conservative rfl rfl (treasuryRun_of Sample.divided_fair Sample.genesis.world)

/-- The 101 are paid as 70 and 31. -/
example : Sample.dividedWorld.log.map (fun t => (t.payee, t.amount)) =
    [(Sample.party 8, 70), (Sample.party 7, 31)] := by decide +kernel

end SoroStream
