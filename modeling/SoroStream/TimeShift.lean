import SoroStream.Frame
import SoroStream.InStep

namespace SoroStream

open Lib Lib.Rollback Lib.Rollback.Prog Lib.Runs Contract

variable {host : Host} {env : Env host} {w w' : World} {c c' : Chain} {id : StreamId} {s s' : Stream} {d p now : Nat}
  {m : Streams} {made : List Stream}

def Unmarked (m : Streams) : Prop := ∀ id s, m.lookup id = some s → s.status = .active → s.lastPauseTime = 0

namespace Unmarked

theorem insert (h : Unmarked m) (hs : s.status = .active → s.lastPauseTime = 0) : Unmarked (m.insert s.id s) := by
  intro j r hr
  by_cases hj : j = s.id
  · subst hj
    rw [Finmap.lookup_insert] at hr
    obtain rfl := Option.some.inj hr
    exact hs
  · rw [Finmap.lookup_insert_of_ne _ hj] at hr
    exact h j r hr

theorem erase (h : Unmarked m) (id : StreamId) : Unmarked (m.erase id) := by
  intro j r hr
  by_cases hj : j = id
  · subst hj
    simp at hr
  · rw [Finmap.lookup_erase_ne hj] at hr
    exact h j r hr

end Unmarked

theorem Settlement.unmarked {looks : Bool} {ts : List Transfer} (h : Settlement env w now looks s (some s') ts)
    (hs : s.lastPauseTime = 0) : s'.lastPauseTime = 0 := by
  cases h with
  | running | renewed | lapsed => exact hs

theorem action_unmarked {b : Book} {ts : List Transfer} (h : Action env w made b ts)
    (hw : Unmarked w.book.streams) : Unmarked b.streams := by
  cases h with
  | nonceMarked | batchCounted | delegated => exact hw
  | opened s duration fees h => exact hw.insert fun _ => h.untouched.2.1
  | withdrawn single id s claim w₁ out us h =>
      cases out with
      | none => exact hw.erase id
      | some s' => exact hw.insert fun _ => h.settled.unmarked (hw id s h.stored h.active)
  | handedOver id s claim w₁ recipient h =>
      refine hw.insert fun hactive => ?_
      have hmark : (s.advance claim (s.clock env.now)).lastPauseTime = s.lastPauseTime :=
        advance_field Stream.lastPauseTime rfl
      exact hmark.trans (hw id s h.stored ((advance_status s claim _).symm.trans hactive))
  | closed id s | archived id s => exact hw.erase id
  | split id s cancelAmount earned streamed h => exact (hw.insert (by simp)).insert fun _ => rfl
  | toppedUp id s caller amount h => exact hw.insert (hw id s h.stored)
  | paused id s hs hauth hactive => exact hw.insert (by simp)
  | resumed id s hs hauth hpaused => exact hw.insert fun _ => rfl
  | amended id s metadata autoRenew hs => exact hw.insert (hw id s hs)

theorem reached_unmarked (h : Reached host c) : Unmarked c.world.book.streams := by
  refine reached_inv (fun _ w => Unmarked w.book.streams) ?_ ?_ ?_ h
  · intro c hc id s hs
    simp [hc.book, Book.fresh] at hs
  · intro now now' w w' _ ha hw
    rwa [ha.book]
  · rintro env made w _ ⟨b, ts, w₁, ha, -, rfl⟩ hw
    exact action_unmarked ha hw

theorem resumed_later (hactive : s.status = .active) (hmark : s.lastPauseTime = 0) (hfits : s.FitsLater d) :
    resumed { s with status := .paused, lastPauseTime := p } d = s.later d := by
  simp only [resumed, saturatingAddU64, Checked.satAddNat_of_le hfits.start, Checked.satAddNat_of_le hfits.cliff,
    Checked.satAddNat_of_le hfits.lock, Checked.satAddNat_of_le hfits.stop, Checked.satAddNat_of_le hfits.mark,
    Stream.later, hactive, hmark]

/-- After the pause and the resumption the stream is later by the time between the two. -/
theorem shifted_of_resumed {penv renv : Env host} {sender : Address} {w₁ w₂ : World} {u v : Unit}
    (hid : ∀ s, w.book.streams.lookup id = some s → s.id = id) (hmarks : Unmarked w.book.streams)
    (hfits : ∀ s, w.book.streams.lookup id = some s → s.FitsLater (renv.now - penv.now))
    (hpause : pauseStream id sender penv w = .ok u w₁) (hresume : resumeStream id sender renv w₁ = .ok v w₂) :
    Shifted id (renv.now - penv.now) penv.now w w₂ := by
  obtain ⟨hrun, s, hs, -, -, hactive, rfl⟩ := pauseStream_ok hpause
  obtain rfl := hid s hs
  obtain ⟨-, r, hr, -, -, -, rfl⟩ := resumeStream_ok hresume
  obtain rfl := Option.some.inj ((Finmap.lookup_insert _).symm.trans hr)
  have hrunning := running_of_not_paused hrun
  refine ⟨fun r hr => ?_, hrunning, (w.pause.settle penv.now).settle renv.now, hrunning.settle.settle, ?_⟩
  · obtain rfl := Option.some.inj (hs.symm.trans hr)
    exact ⟨rfl, by simp [hactive]⟩
  · have hbook : laterAt s.id (renv.now - penv.now) w.book.streams =
        w.book.streams.insert s.id (s.later (renv.now - penv.now)) := by
      simp only [laterAt, hs]
    rw [resumed_later hactive (hmarks _ s hs hactive) (hfits s hs)]
    simp only [World.later, Book.later, hbook]
    simp only [World.withBook, World.awake, Book.save, Stream.later, Finmap.insert_insert]

inductive Op
  | withdraw (recipient : Address)
  | cancelStream (caller : Address)
  | recipientTerminate (recipient : Address)
  | transferRecipient (currentRecipient newRecipient : Address)
  | topUp (caller token : Address) (amount : I128)
  | getClaimable

namespace Op

def call (id : StreamId) : Op → Call
  | .withdraw recipient => .stream (.withdraw id recipient)
  | .cancelStream caller => .stream (.cancelStream id caller)
  | .recipientTerminate recipient => .stream (.recipientTerminate id recipient)
  | .transferRecipient current new => .stream (.transferRecipient id current new)
  | .topUp caller token amount => .stream (.topUp id caller token amount)
  | .getClaimable => .view (.getClaimable id)

def run (id : StreamId) : Op → Contract host (Option Int)
  | .withdraw recipient => do
      Contract.withdraw id recipient
      pure none
  | .cancelStream caller => do
      Contract.cancelStream id caller
      pure none
  | .recipientTerminate recipient => do
      Contract.recipientTerminate id recipient
      pure none
  | .transferRecipient current new => do
      Contract.transferRecipient id current new
      pure none
  | .topUp caller token amount => do
      Contract.topUp id caller token amount.val
      pure none
  | .getClaimable => do
      let amount ← Contract.getClaimable id
      pure (some amount)

end Op

structure Timed (host : Host) where
  env : Env host
  op : Op

def Timed.event (id : StreamId) (t : Timed host) : Event host := .call t.env (t.op.call id)

def Timed.later (d : Nat) (t : Timed host) : Timed host := { t with env := t.env.later d }

def answers (id : StreamId) : Chain → List (Timed host) → List (Option (Option Int))
  | _, [] => []
  | c, t :: ts => (t.op.run id t.env c.world).value? :: answers id (c.step (t.event id)) ts

def Chain.perform (c : Chain) (id : StreamId) (ops : List (Timed host)) : Chain := c.after (ops.map (Timed.event id))

theorem commit_returns {α β : Type} {x : Contract host α} {f : α → β} (v : World) :
    ((x >>= fun a => pure (f a)) env w).commit v = (x env w).commit v := by
  simp only [bind]
  cases x env w with
  | ok a t | err e t | trap => rfl

theorem step_event (t : Timed host) : (c.step (t.event id)).world = (t.op.run id t.env c.world).commit c.world := by
  obtain ⟨env, op⟩ := t
  cases op with
  | getClaimable =>
      simp only [Chain.step, Timed.event, Op.call, Op.run, Call.exec, View.exec, Contract.discard]
      rw [commit_returns, commit_returns, commit_returns]
  | withdraw | cancelStream | recipientTerminate | transferRecipient | topUp =>
      simp only [Chain.step, Timed.event, Op.call, Op.run, Call.exec, StreamCall.exec]
      rw [commit_returns, commit_returns]

theorem op_shifted {t : Timed host} (hp : p ≤ t.env.now) (hfit : t.env.now + d ≤ u64Max)
    (hcool : ∀ recipient, t.op = .withdraw recipient → t.env.now + d = u64Max →
      ∀ s, w.book.streams.lookup id = some s → ¬Cooling w s t.env.now)
    (hw : Shifted id d p w w') :
    (t.op.run id t.env w).Agree (Shifted id d p) Eq (t.op.run id (t.env.later d) w') ∨
      ∃ a v, t.op.run id t.env w = .ok a v ∧ Outgrown id d v := by
  obtain ⟨env, op⟩ := t
  cases op with
  | withdraw recipient =>
      have hno : ∀ s, w.book.streams.lookup id = some s → env.now + d = u64Max → ¬Cooling w s env.now :=
        fun s hs hlast => hcool recipient rfl hlast s hs
      exact unless_returns (inStep_withdraw hp hfit hno) _ ⟨hw, rfl, rfl⟩
  | cancelStream caller => exact unless_returns (inStep_cancelStream hfit).unless _ hw
  | recipientTerminate recipient => exact unless_returns (inStep_recipientTerminate hp hfit).unless _ hw
  | transferRecipient current new => exact unless_returns (inStep_transferRecipient hp hfit).unless _ hw
  | topUp caller token amount => exact unless_returns (inStep_topUp hp hfit) _ hw
  | getClaimable => exact unless_returns (inStep_getClaimable hfit).unless _ hw

def Chain.Fits (c : Chain) (id : StreamId) (d : Nat) : Prop :=
  ∀ s ∈ c.world.book.streams.lookup id, Stream.FitsLater s d

instance (c : Chain) (id : StreamId) (d : Nat) : Decidable (c.Fits id d) :=
  inferInstanceAs (Decidable (∀ s ∈ c.world.book.streams.lookup id, _))

/-- The operation withdraws at the last instant of the clock, once moved by `d`, and its
cooldown still runs. -/
def Chain.CoolsAtEnd (c : Chain) (id : StreamId) (d : Nat) (t : Timed host) : Prop :=
  (∃ recipient, t.op = .withdraw recipient) ∧ t.env.now + d = u64Max ∧
    ∃ s ∈ c.world.book.streams.lookup id, Cooling c.world s t.env.now

theorem perform_shifted {ops : List (Timed host)} (hw : Shifted id d p c.world c'.world)
    (hafter : ∀ t ∈ ops, p ≤ t.env.now) (hreach : ∀ t ∈ ops, t.env.now + d ≤ u64Max)
    (hfits : ∀ before, before <+: ops → (c.perform id before).Fits id d)
    (hcool : ∀ before t, before ++ [t] <+: ops → ¬(c.perform id before).CoolsAtEnd id d t) :
    answers id c' (ops.map (Timed.later d)) = answers id c ops ∧
      Shifted id d p (c.perform id ops).world (c'.perform id (ops.map (Timed.later d))).world := by
  induction ops generalizing c c' with
  | nil => exact ⟨rfl, hw⟩
  | cons t ops ih =>
      have hno : ∀ recipient, t.op = .withdraw recipient → t.env.now + d = u64Max →
          ∀ s, c.world.book.streams.lookup id = some s → ¬Cooling c.world s t.env.now :=
        fun recipient hop hlast s hs h =>
          hcool [] t (List.prefix_append [t] ops) ⟨⟨recipient, hop⟩, hlast, s, hs, h⟩
      have hnext : (c.step (t.event id)).Fits id d := hfits [t] (List.prefix_append [t] ops)
      have hagree : (t.op.run id t.env c.world).Agree (Shifted id d p) Eq
          (t.op.run id (t.env.later d) c'.world) := by
        rcases op_shifted (hafter t (by simp)) (hreach t (by simp)) hno hw with h | ⟨a, v, hok, s, hs, hlate⟩
        · exact h
        · refine absurd (hnext s ?_) hlate
          rw [step_event, hok]
          exact hs
      have hstep : Shifted id d p (c.step (t.event id)).world (c'.step ((t.later d).event id)).world := by
        rw [step_event, step_event]
        exact hagree.commit hw
      obtain ⟨hrest, hlast⟩ := ih hstep (fun t ht => hafter t (by simp [ht])) (fun t ht => hreach t (by simp [ht]))
        (fun before hpre => hfits (t :: before) ((List.prefix_cons_inj t).mpr hpre))
        fun before t' hpre => hcool (t :: before) t' ((List.prefix_cons_inj t).mpr hpre)
      refine ⟨?_, hlast⟩
      simp only [List.map_cons, answers, hrest]
      rw [hagree.value? fun _ _ h => h]
      rfl

def Chain.interrupted (c : Chain) (id : StreamId) (sender : Address) (penv renv : Env host) : Chain :=
  (c.step (.call penv (.stream (.pauseStream id sender)))).step (.call renv (.stream (.resumeStream id sender)))

/-- Operations on an active stream, in order and none before the pause that the second
run begins with. Neither their times nor those of the record leave the `u64` range when
they are moved by the length of the pause. -/
structure Interlude (c : Chain) (id : StreamId) (sender : Address) (penv renv : Env host)
    (ops : List (Timed host)) : Prop where
  reached : Reached host c
  active : ∃ s ∈ c.world.book.streams.lookup id, s.status = .active
  clock : c.now ≤ penv.now ∧ penv.now ≤ renv.now
  times : (penv.now :: ops.map fun t => t.env.now).Pairwise (· ≤ ·)
  paused : (pauseStream id sender penv c.world).value? = some ()
  resumed : (resumeStream id sender renv
    (c.step (.call penv (.stream (.pauseStream id sender)))).world).value? = some ()
  reach : ∀ t ∈ ops, t.env.now + (renv.now - penv.now) ≤ u64Max
  fits : ∀ before, before <+: ops → (c.perform id before).Fits id (renv.now - penv.now)

theorem Interlude.shifted {sender : Address} {penv renv : Env host} {ops : List (Timed host)}
    (h : Interlude c id sender penv renv ops) :
    Shifted id (renv.now - penv.now) penv.now c.world (c.interrupted id sender penv renv).world := by
  have hpause := Outcome.ok_commit h.paused c.world
  have hresume := Outcome.ok_commit h.resumed (c.step (.call penv (.stream (.pauseStream id sender)))).world
  have hfirst : (c.step (.call penv (.stream (.pauseStream id sender)))).world =
      (pauseStream id sender penv c.world).commit c.world := by
    simp only [Chain.step, Call.exec, StreamCall.exec, commit_returns]
  have hsecond : (c.interrupted id sender penv renv).world =
      (resumeStream id sender renv (c.step (.call penv (.stream (.pauseStream id sender)))).world).commit
        (c.step (.call penv (.stream (.pauseStream id sender)))).world := by
    simp only [Chain.interrupted, Chain.step, Call.exec, StreamCall.exec, commit_returns]
  rw [hsecond]
  rw [← hfirst] at hpause
  exact shifted_of_resumed (fun s hs => (reached_accounts h.reached id s hs).1) (reached_unmarked h.reached)
    (fun s hs => h.fits [] (List.nil_prefix) s hs) hpause hresume

/-- A pause and a resumption only move a stream in time: up to withdrawals at the last
instant of the clock that the cooldown still forbids, the two runs succeed and fail alike,
answer and move the same, and leave the same records, but for the times of the one stream. -/
theorem pause_is_time_shift {sender : Address} {penv renv : Env host} {ops : List (Timed host)}
    (h : Interlude c id sender penv renv ops)
    (hcool : ∀ before t, before ++ [t] <+: ops → ¬(c.perform id before).CoolsAtEnd id (renv.now - penv.now) t) :
    let d := renv.now - penv.now
    let direct := c.perform id ops
    let delayed := (c.interrupted id sender penv renv).perform id (ops.map (Timed.later d))
    answers id (c.interrupted id sender penv renv) (ops.map (Timed.later d)) = answers id c ops ∧
      delayed.world.log = direct.world.log ∧ delayed.world.balances = direct.world.balances ∧
      ∀ j, delayed.world.book.streams.lookup j =
        if j = id then (direct.world.book.streams.lookup id).map (·.later d)
        else direct.world.book.streams.lookup j := by
  intro d direct delayed
  have hafter : ∀ t ∈ ops, penv.now ≤ t.env.now :=
    fun t ht => List.rel_of_pairwise_cons h.times (List.mem_map_of_mem ht)
  obtain ⟨hanswers, -, -, cells, -, hworld⟩ := perform_shifted h.shifted hafter h.reach h.fits hcool
  refine ⟨hanswers, ?_⟩
  change delayed.world = direct.world.later id d cells at hworld
  rw [hworld]
  exact ⟨rfl, rfl, lookup_laterAt⟩

namespace Sample

def slowed : Chain := genesis.after
  [configure [4] 1 (.initializeContract (party 4) "1.0.0"), configure [4] 2 (.setWithdrawalCooldown (party 4) 10000),
    opening 500 0]

/-- A withdrawal that comes too early, a look, a top-up, a withdrawal and a last look. -/
def doings : List (Timed site) :=
  [⟨signed [3] 1200, .withdraw (party 3)⟩, ⟨signed [] 1600, .getClaimable⟩,
    ⟨signed [2] 2000, .topUp (party 2) (party 9) (terms 0 0).amount⟩, ⟨signed [3] 10010, .withdraw (party 3)⟩,
    ⟨signed [] 10020, .getClaimable⟩]

theorem slowed_reached : Reached site slowed := reached_after genesis_fresh (by decide)

/-- For finitely many operations the record can be looked at after each of them. -/
theorem fits_of_inits {c : Chain} {ops : List (Timed host)}
    (h : ∀ before ∈ ops.inits, (c.perform id before).Fits id d) :
    ∀ before, before <+: ops → (c.perform id before).Fits id d :=
  fun before hpre => h before ((List.mem_inits before ops).mpr hpre)

theorem doings_interlude :
    Interlude slowed streamId (party 2) (signed [2] 1000) (signed [2] 3000) doings where
  reached := slowed_reached
  active := by decide +kernel
  clock := by decide
  times := by decide
  paused := by decide +kernel
  resumed := by decide +kernel
  reach := by decide
  fits := fits_of_inits (by decide +kernel)

end Sample

theorem sample_pause_is_time_shift :
    answers Sample.streamId (Sample.slowed.interrupted Sample.streamId (Sample.party 2) (Sample.signed [2] 1000)
      (Sample.signed [2] 3000)) (Sample.doings.map (Timed.later 2000)) =
        [none, some (some 39750), some none, some none, none] := by
  have hbelow : ∀ t ∈ Sample.doings, t.env.now + 2000 ≠ u64Max := by decide
  refine (pause_is_time_shift Sample.doings_interlude ?_).1.trans (by decide +kernel)
  rintro before t hpre ⟨-, hlast, -⟩
  exact hbelow t (hpre.subset (by simp)) hlast

/-- A sum that saturates at the last instant no longer holds a withdrawal back then: it
fails at 5000, in a cooldown up to 10010, and succeeds when the stream was paused so long
that the clock ends with it. -/
theorem cooldown_lost_at_last_instant : ∃ ops : List (Timed Sample.site),
    Interlude Sample.slowed Sample.streamId (Sample.party 2) (Sample.signed [2] 1000)
      (Sample.signed [2] 18446744073709547615) ops ∧
    answers Sample.streamId Sample.slowed ops = [none] ∧
    answers Sample.streamId (Sample.slowed.interrupted Sample.streamId (Sample.party 2) (Sample.signed [2] 1000)
      (Sample.signed [2] 18446744073709547615)) (ops.map (Timed.later 18446744073709546615)) = [some none] := by
  refine ⟨[⟨Sample.signed [3] 5000, .withdraw (Sample.party 3)⟩], ?_, by decide +kernel, by decide +kernel⟩
  exact
    { reached := Sample.slowed_reached
      active := by decide +kernel
      clock := by decide
      times := by decide
      paused := by decide +kernel
      resumed := by decide +kernel
      reach := by decide
      fits := Sample.fits_of_inits (by decide +kernel) }

end SoroStream
