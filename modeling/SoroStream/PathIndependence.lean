import SoroStream.Exit
import SoroStream.Lib.Meter

namespace SoroStream

open Lib Lib.Rollback Lib.Rollback.Prog Lib.Runs Contract

variable {host : Host} {env : Env host} {w w' : World} {id : StreamId} {s r : Stream} {c c' : Chain}
  {times : List Nat} {recipient : Address} {now t : Nat} {claim : Int}

def Stream.meter (s : Stream) : Meter Int := ⟨s.flowRate, s.lastWithdrawTime, s.totalWithdrawn⟩

theorem lastWithdrawTime_of_meter {m : Meter Int} (h : s.meter = m) (hm : m.mark = t) : s.lastWithdrawTime = t := by
  have hmark : (s.lastWithdrawTime : Int) = m.mark := congrArg Meter.mark h
  exact_mod_cast hmark.trans hm

theorem checkpoint_read (hrate : 1 ≤ s.flowRate) (hafter : s.lastWithdrawTime ≤ t) (hend : t ≤ s.endTime)
    (hclaim : claim = flowed s t) : (s.checkpoint claim t).meter = s.meter.read t := by
  have hmin : min t s.endTime = t := min_eq_left hend
  have hpos := flowed_nonneg hrate t
  have hflow : flowed s t = s.flowRate * ((t : Int) - s.lastWithdrawTime) := by
    rw [flowed, hmin, Nat.cast_sub hafter]
  have htotal : (s.checkpoint claim t).totalWithdrawn = s.totalWithdrawn + flowed s t := by
    simp only [Stream.checkpoint, Stream.credit, hclaim]
    split <;> omega
  simp only [Stream.meter, Meter.read, htotal, hflow]
  simp only [Stream.checkpoint, Stream.credit, hmin]

theorem checkpoint_skip (hend : t ≤ s.endTime) : (s.checkpoint 0 t).meter = s.meter.skip t := by
  simp [Stream.meter, Meter.skip, Stream.checkpoint, Stream.credit, min_eq_left hend]

/-- Runs in which claiming calls alone touch the record of one stream. `times`
are those of its withdrawals. -/
inductive ClaimRun (host : Host) (id : StreamId) (c : Chain) : List Nat → Chain → Prop
  | start : ClaimRun host id c [] c
  | withdraw {times : List Nat} {c' : Chain} {w' : World} (env : Env host) (recipient : Address)
      (h : ClaimRun host id c times c') (hnow : c'.now ≤ env.now)
      (hok : withdraw id recipient env c'.world = .ok () w') :
      ClaimRun host id c (times ++ [env.now]) ⟨w', env.now⟩
  | transferRecipient {times : List Nat} {c' : Chain} {w' : World} (env : Env host)
      (current recipient : Address) (h : ClaimRun host id c times c') (hnow : c'.now ≤ env.now)
      (hok : transferRecipient id current recipient env c'.world = .ok () w') :
      ClaimRun host id c times ⟨w', env.now⟩
  | other {times : List Nat} {c' : Chain} (e : Event host) (h : ClaimRun host id c times c') (hmay : May c' e)
      (hsame : (c'.step e).world.book.streams.lookup id = c'.world.book.streams.lookup id) :
      ClaimRun host id c times (c'.step e)

theorem step_of_ok {call : StreamCall} {ids : List StreamId} (h : call.exec env c.world = .ok ids w') :
    c.step (.call env (.stream call)) = ⟨w', env.now⟩ := by
  simp only [Chain.step, Call.exec, h, Outcome.commit_ok]
  rfl

theorem ClaimRun.reached (hrun : ClaimRun host id c times c') (h : Reached host c) : Reached host c' := by
  induction hrun with
  | start => exact h
  | withdraw env recipient hr hnow hok ih =>
      have hexec : (StreamCall.withdraw id recipient).exec env _ = .ok [] _ :=
        bind_ok.mpr ⟨(), _, hok, rfl⟩
      rw [← step_of_ok hexec]
      exact ih.next ⟨hnow, trivial⟩
  | transferRecipient env current recipient hr hnow hok ih =>
      have hexec : (StreamCall.transferRecipient id current recipient).exec env _ = .ok [] _ :=
        bind_ok.mpr ⟨(), _, hok, rfl⟩
      rw [← step_of_ok hexec]
      exact ih.next ⟨hnow, trivial⟩
  | other e hr hmay hsame ih => exact ih.next hmay

theorem ClaimRun.now_le (hrun : ClaimRun host id c times c') : c.now ≤ c'.now := by
  induction hrun with
  | start => exact le_rfl
  | withdraw env recipient hr hnow hok ih => exact ih.trans hnow
  | transferRecipient env current recipient hr hnow hok ih => exact ih.trans hnow
  | other e hr hmay hsame ih => exact ih.trans hmay.1

theorem withdraw_meter (hid : s.id = id) (hsound : Sound env.now s) (hs : w.book.streams.lookup id = some s)
    (hend : env.now < s.endTime) {u : Unit} (h : withdraw id recipient env w = .ok u w') :
    ∃ r, w'.book.streams.lookup id = some r ∧ r = { s with
        lastWithdrawTime := r.lastWithdrawTime, totalWithdrawn := r.totalWithdrawn } ∧
      r.lastWithdrawTime = env.now ∧
      r.meter = if env.now < s.cliffTime then s.meter.skip env.now else s.meter.read env.now := by
  obtain ⟨-, s', claim, w₁, out, us, -, hwd, rfl⟩ := withdraw_ok h
  obtain rfl := Option.some.inj (hs.symm.trans hwd.stored)
  have hclaim := claimableAt_eq hwd.claimed
  have hset := hwd.settled
  have hlate : ¬s.endTime ≤ env.now := not_le.mpr hend
  cases hset with
  | running _ =>
      refine ⟨s.checkpoint claim env.now, ?_, ?_, ?_, ?_⟩
      · exact hwd.lookup hid
      · simp [Stream.checkpoint, Stream.credit]
      · simp [Stream.checkpoint, min_eq_left hend.le]
      · by_cases hcliff : env.now < s.cliffTime
        · rw [if_pos hcliff] at hclaim ⊢
          rw [hclaim]
          exact checkpoint_skip hend.le
        · rw [if_neg hcliff] at hclaim ⊢
          exact checkpoint_read hsound.rate (hsound.active hwd.active) hend.le hclaim
  | renewed hdue | lapsed hdue | finished hdue => exact absurd hdue hlate

theorem transferRecipient_meter (hid : s.id = id) (hsound : Sound env.now s)
    (hs : w.book.streams.lookup id = some s) (hactive : s.status = .active) (hend : env.now < s.endTime)
    {current : Address} {u : Unit} (h : transferRecipient id current recipient env w = .ok u w') :
    ∃ r, w'.book.streams.lookup id = some r ∧ r = { s with
        recipient := r.recipient, lastWithdrawTime := r.lastWithdrawTime, totalWithdrawn := r.totalWithdrawn } ∧
      (r.meter = s.meter ∨ s.cliffTime ≤ env.now ∧ s.lastWithdrawTime ≤ env.now ∧
        r.meter = s.meter.read env.now) := by
  obtain ⟨-, s', claim, w₁, -, hh, rfl⟩ := transferRecipient_ok h
  obtain rfl := Option.some.inj (hs.symm.trans hh.stored)
  have hclock := clock_of_active hactive env.now
  have hclaim := hh.claimed
  have hafter := hsound.active hactive
  rw [hclock] at hclaim ⊢
  refine ⟨{ s.advance claim env.now with recipient := recipient }, ?_, ?_, ?_⟩
  · have hlookup : (HandOver.book w₁.book id s claim env.now recipient).streams =
        w₁.book.streams.insert (s.advance claim env.now).id { s.advance claim env.now with recipient } := rfl
    rw [withBook_book, hlookup, advance_id, hid, Finmap.lookup_insert]
  · simp only [Stream.advance, Stream.checkpoint, Stream.credit]
    split <;> rfl
  · by_cases hpos : 0 < claim
    · have hopen : s.lockUntil ≤ env.now ∧ s.cliffTime ≤ env.now := by
        by_contra hn
        rw [handOverClaim, if_neg hn] at hclaim
        exact hpos.ne (Option.some.inj hclaim)
      rw [handOverClaim, if_pos hopen] at hclaim
      have hflow := claimableAt_eq hclaim
      rw [if_neg (not_lt.mpr hopen.2)] at hflow
      refine .inr ⟨hopen.2, hafter, ?_⟩
      have hread := checkpoint_read hsound.rate hafter hend.le hflow
      simpa only [Stream.advance, if_pos hpos, Stream.meter] using hread
    · refine .inl ?_
      simp only [Stream.advance, if_neg hpos, Stream.meter]

def NoneEarly (s : Stream) (times : List Nat) : Prop := ∀ t ∈ times, ¬(s.lastWithdrawTime < t ∧ t < s.cliffTime)

theorem noneEarly_append : NoneEarly s (times ++ [t]) ↔
    NoneEarly s times ∧ ¬(s.lastWithdrawTime < t ∧ t < s.cliffTime) := by
  simp only [NoneEarly, List.forall_mem_append, List.forall_mem_singleton]

structure Tracks (s : Stream) (times : List Nat) (now : Nat) (r : Stream) : Prop where
  same : r = { s with
    recipient := r.recipient, lastWithdrawTime := r.lastWithdrawTime, totalWithdrawn := r.totalWithdrawn }
  after : s.lastWithdrawTime ≤ r.lastWithdrawTime
  unpaid : now < s.cliffTime → r.totalWithdrawn = s.totalWithdrawn
  le : r.meter.baseline ≤ s.meter.baseline
  eq_iff : r.meter.baseline = s.meter.baseline ↔ NoneEarly s times

namespace Tracks

theorem refl (s : Stream) (now : Nat) : Tracks s [] now s :=
  ⟨rfl, le_rfl, fun _ => rfl, le_rfl, by simp [NoneEarly]⟩

theorem mono {now' : Nat} (h : Tracks s times now r) (hnow : now ≤ now') : Tracks s times now' r :=
  { h with unpaid := fun hc => h.unpaid (hnow.trans_lt hc) }

theorem rate (h : Tracks s times now r) : r.flowRate = s.flowRate := by rw [h.same]
theorem cliff (h : Tracks s times now r) : r.cliffTime = s.cliffTime := by rw [h.same]
theorem status (h : Tracks s times now r) : r.status = s.status := by rw [h.same]
theorem endTime (h : Tracks s times now r) : r.endTime = s.endTime := by rw [h.same]

/-- A reading once the cliff has passed keeps the baseline. -/
theorem read (h : Tracks s times now r) {q : Stream} (hcliff : s.cliffTime ≤ t) (hmark : r.lastWithdrawTime ≤ t)
    (hsame : q = { r with
      recipient := q.recipient, lastWithdrawTime := q.lastWithdrawTime, totalWithdrawn := q.totalWithdrawn })
    (hmeter : q.meter = r.meter.read t) : Tracks s times t q := by
  have hbase : q.meter.baseline = r.meter.baseline := by rw [hmeter, Meter.read_baseline]
  have hlast := lastWithdrawTime_of_meter hmeter rfl
  refine ⟨?_, ?_, fun hc => absurd hc (not_lt.mpr hcliff), hbase ▸ h.le, hbase ▸ h.eq_iff⟩
  · rw [hsame, h.same]
  · exact hlast ▸ h.after.trans hmark

/-- A withdrawal before the cliff keeps the baseline only where it does not move
the checkpoint, and then none before it did. -/
theorem skip (h : Tracks s times now r) {r' : Stream} (hrate : 1 ≤ s.flowRate) (hnow : now ≤ t)
    (hcliff : t < s.cliffTime) (hmark : r.lastWithdrawTime ≤ t)
    (hr' : r' = { r with lastWithdrawTime := r'.lastWithdrawTime, totalWithdrawn := r'.totalWithdrawn })
    (hmeter : r'.meter = r.meter.skip t) : Tracks s (times ++ [t]) t r' := by
  have hlast := lastWithdrawTime_of_meter hmeter rfl
  have htotal : r'.totalWithdrawn = s.totalWithdrawn :=
    (congrArg Meter.total hmeter).trans (h.unpaid (hnow.trans_lt hcliff))
  have hrate' : r'.meter.rate = s.meter.rate := (congrArg Meter.rate hmeter).trans h.rate
  have hpos : 0 < s.meter.rate := hrate
  have hpos' : 0 < r.meter.rate := hrate.trans h.rate.ge
  have hle : s.lastWithdrawTime ≤ t := h.after.trans hmark
  refine ⟨?_, hlast ▸ hle, fun _ => htotal, ?_, ?_⟩
  · rw [hr', h.same]
  · rw [hmeter]
    exact (Meter.skip_baseline_le hpos' (Int.ofNat_le.mpr hmark)).trans h.le
  · rw [noneEarly_append]
    rcases hle.eq_or_lt with heq | hlt
    · -- the checkpoint is where it was at the beginning
      have hmark' : r'.meter = s.meter := by
        simp only [Stream.meter] at hrate' ⊢
        rw [hrate', hlast, htotal, heq]
      have hr : r.meter.baseline = s.meter.baseline := by
        have hstay : r.lastWithdrawTime = s.lastWithdrawTime := le_antisymm (heq ▸ hmark) h.after
        have hsame : r.meter = s.meter := by
          simp only [Stream.meter]
          rw [h.rate, hstay, h.unpaid (hnow.trans_lt hcliff)]
        rw [hsame]
      rw [hmark']
      exact ⟨fun _ => ⟨h.eq_iff.mp hr, fun hbad => absurd hbad.1 (heq ▸ lt_irrefl _)⟩, fun _ => rfl⟩
    · have hlost : r'.meter.baseline < s.meter.baseline := by
        refine Meter.baseline_lt_of_mark_lt hpos hrate' htotal ?_
        simp only [Stream.meter, hlast]
        exact_mod_cast hlt
      exact ⟨fun heq => absurd heq hlost.ne, fun hnone => absurd ⟨hlt, hcliff⟩ hnone.2⟩

end Tracks

theorem ClaimRun.tracks (hrun : ClaimRun host id c times c') (h : Reached host c)
    (hs : c.world.book.streams.lookup id = some s) (hactive : s.status = .active) (hend : c'.now < s.endTime) :
    ∃ r, c'.world.book.streams.lookup id = some r ∧ Tracks s times c'.now r := by
  have hrate := (reached_accounts h id s hs).2.rate
  induction hrun with
  | start => exact ⟨s, hs, .refl s c.now⟩
  | @withdraw times c' w' env recipient hr hnow hok ih =>
      obtain ⟨r, hr', ht⟩ := ih (hnow.trans_lt hend)
      obtain ⟨hid, hsound⟩ := (reached_accounts (hr.reached h)).mono hnow id r hr'
      have hmark := hsound.active (ht.status.trans hactive)
      obtain ⟨r', hstored, hsame, hlast, hmeter⟩ := withdraw_meter hid hsound hr' (ht.endTime ▸ hend) hok
      refine ⟨r', hstored, ?_⟩
      rw [ht.cliff] at hmeter
      by_cases hcliff : env.now < s.cliffTime
      · rw [if_pos hcliff] at hmeter
        exact ht.skip hrate hnow hcliff hmark hsame hmeter
      · rw [if_neg hcliff] at hmeter
        have hread := ht.read (q := r') (not_lt.mp hcliff) hmark (by rw [hsame]) hmeter
        refine { hread with eq_iff := hread.eq_iff.trans ?_ }
        rw [noneEarly_append]
        exact ⟨fun hn => ⟨hn, fun hbad => hcliff hbad.2⟩, fun hn => hn.1⟩
  | @transferRecipient times c' w' env current recipient hr hnow hok ih =>
      obtain ⟨r, hr', ht⟩ := ih (hnow.trans_lt hend)
      obtain ⟨hid, hsound⟩ := (reached_accounts (hr.reached h)).mono hnow id r hr'
      obtain ⟨r', hstored, hsame, hmeter⟩ :=
        transferRecipient_meter hid hsound hr' (ht.status.trans hactive) (ht.endTime ▸ hend) hok
      refine ⟨r', hstored, ?_⟩
      rcases hmeter with hmeter | ⟨hcliff, hmark, hmeter⟩
      · have hlast := lastWithdrawTime_of_meter hmeter rfl
        have htotal : r'.totalWithdrawn = r.totalWithdrawn := congrArg Meter.total hmeter
        refine ⟨by rw [hsame, ht.same], hlast ▸ ht.after, ?_, hmeter ▸ ht.le, hmeter ▸ ht.eq_iff⟩
        exact fun hc => htotal.trans (ht.unpaid (hnow.trans_lt hc))
      · exact ht.read (ht.cliff ▸ hcliff) hmark hsame hmeter
  | @other times c' e hr hmay hsame ih =>
      obtain ⟨r, hr', ht⟩ := ih (hmay.1.trans_lt hend)
      exact ⟨r, hsame.trans hr', ht.mono hmay.1⟩

/-- What one withdrawal leaves counted, once the cliff has passed and while the
stream runs. -/
theorem withdraw_claims (hid : s.id = id) (hsound : Sound env.now s) (hs : w.book.streams.lookup id = some s)
    (hcliff : s.cliffTime ≤ env.now) (hend : env.now < s.endTime) {u : Unit}
    (h : withdraw id recipient env w = .ok u w') :
    ∃ r, w'.book.streams.lookup id = some r ∧
      r.totalWithdrawn = s.meter.baseline + s.flowRate * env.now := by
  obtain ⟨r, hr, -, -, hmeter⟩ := withdraw_meter hid hsound hs hend h
  rw [if_neg (not_lt.mpr hcliff)] at hmeter
  refine ⟨r, hr, ?_⟩
  have htotal : r.meter.total = (s.meter.read env.now).total := by rw [hmeter]
  rw [Meter.read_total] at htotal
  exact htotal

/-- A sequence of claiming calls that ends with a withdrawal at a time when the
cliff has passed and the stream still runs claims in all what that withdrawal
alone would have claimed, exactly when no withdrawal of the sequence came before
the cliff and moved the checkpoint. -/
theorem claims_path_independent_iff (env : Env host) (h : Reached host c)
    (hs : c.world.book.streams.lookup id = some s) (hactive : s.status = .active)
    (hrun : ClaimRun host id c times c') (hnow : c'.now ≤ env.now) (hcliff : s.cliffTime ≤ env.now)
    (hend : env.now < s.endTime) (hlast : withdraw id recipient env c'.world = .ok () w') :
    ∃ r single, w'.book.streams.lookup id = some r ∧
      VestingMath.computeClaimable s.flowRate env.now s.cliffTime s.endTime s.lastWithdrawTime = some single ∧
      (∀ (env₁ : Env host) (w₁ w₁' : World) (recipient₁ : Address), env₁.now = env.now →
        w₁.book.streams.lookup id = some s → withdraw id recipient₁ env₁ w₁ = .ok () w₁' →
        ∃ r₁, w₁'.book.streams.lookup id = some r₁ ∧ r₁.totalWithdrawn - s.totalWithdrawn = single) ∧
      (r.totalWithdrawn - s.totalWithdrawn = single ↔
        ∀ t ∈ times, ¬(s.lastWithdrawTime < t ∧ t < s.cliffTime)) := by
  obtain ⟨q, hq, ht⟩ := hrun.tracks h hs hactive (hnow.trans_lt hend)
  obtain ⟨hidq, hsoundq⟩ := (reached_accounts (hrun.reached h)).mono hnow id q hq
  obtain ⟨hid, hsound⟩ := (reached_accounts h).mono (hrun.now_le.trans hnow) id s hs
  obtain ⟨r, hr, htotal⟩ := withdraw_claims hidq hsoundq hq (ht.cliff ▸ hcliff) (ht.endTime ▸ hend) hlast
  have hmark := hsound.active hactive
  have hsingle : flowed s env.now = s.meter.baseline + s.flowRate * env.now - s.totalWithdrawn := by
    rw [flowed, min_eq_left hend.le, Nat.cast_sub hmark, Meter.baseline]
    simp only [Stream.meter]
    ring
  refine ⟨r, flowed s env.now, hr, ?_, ?_, ?_⟩
  · have hclaim := hsound.claimableAt_eq_some env.now
    rwa [if_pos hcliff] at hclaim
  · intro env₁ w₁ w₁' recipient₁ hsame hs₁ hok
    have hsound₁ : Sound env₁.now s := hsame ▸ hsound
    obtain ⟨r₁, hr₁, htotal₁⟩ := withdraw_claims hid hsound₁ hs₁ (hsame ▸ hcliff) (hsame ▸ hend) hok
    refine ⟨r₁, hr₁, ?_⟩
    rw [htotal₁, hsingle, hsame]
  · rw [htotal, hsingle, ht.rate, sub_left_inj, add_left_inj]
    exact ht.eq_iff

namespace Sample

def opened : Chain := genesis.after [opening 500 0]

def withdrawn (time : U64) (w : World) : World :=
  (withdraw streamId (party 3) (signed [3] time) w).commit w

end Sample

theorem sample_claims_path_independent_iff : ∃ (r : Stream) (single : Int),
    (Sample.withdrawn 2010 (Sample.withdrawn 300 Sample.opened.world)).book.streams.lookup Sample.streamId =
      some r ∧
    (r.totalWithdrawn - 0 = single ↔ ∀ t ∈ [300], ¬(10 < t ∧ t < 510)) := by
  have hreached : Reached Sample.site Sample.opened := reached_after Sample.genesis_fresh (by decide)
  have hstored : Sample.opened.world.book.streams.lookup Sample.streamId =
      some (createdStream Sample.site (Sample.terms 500 0) 10) := by decide
  have hearly : withdraw Sample.streamId (Sample.party 3) (Sample.signed [3] 300) Sample.opened.world =
      .ok () (Sample.withdrawn 300 Sample.opened.world) := Outcome.ok_commit (by decide) _
  have hlate : withdraw Sample.streamId (Sample.party 3) (Sample.signed [3] 2010)
      (Sample.withdrawn 300 Sample.opened.world) =
      .ok () (Sample.withdrawn 2010 (Sample.withdrawn 300 Sample.opened.world)) :=
    Outcome.ok_commit (by decide +kernel) _
  have hrun : ClaimRun Sample.site Sample.streamId Sample.opened [300]
      ⟨Sample.withdrawn 300 Sample.opened.world, 300⟩ :=
    .withdraw (Sample.signed [3] 300) (Sample.party 3) .start (by decide) hearly
  obtain ⟨r, single, hr, -, -, hiff⟩ := claims_path_independent_iff (Sample.signed [3] 2010) hreached hstored rfl
    hrun (by decide) (by decide) (by decide) hlate
  exact ⟨r, single, hr, hiff⟩

/-- A withdrawal at 300, before the cliff at 510, costs the recipient the 290
seconds since the start: at 2010 it has got 42750 and not 50000. -/
theorem early_withdrawal_forfeits :
    Reached Sample.site Sample.opened ∧
    Sample.opened.world.book.streams.lookup Sample.streamId =
      some (createdStream Sample.site (Sample.terms 500 0) 10) ∧
    (withdraw Sample.streamId (Sample.party 3) (Sample.signed [3] 300) Sample.opened.world).value? = some () ∧
    ((Sample.withdrawn 2010 (Sample.withdrawn 300 Sample.opened.world)).book.streams.lookup
      Sample.streamId).map Stream.totalWithdrawn = some 42750 ∧
    ((Sample.withdrawn 2010 Sample.opened.world).book.streams.lookup
      Sample.streamId).map Stream.totalWithdrawn = some 50000 :=
  ⟨reached_after Sample.genesis_fresh (by decide), by decide, by decide, by decide +kernel, by decide +kernel⟩

end SoroStream
