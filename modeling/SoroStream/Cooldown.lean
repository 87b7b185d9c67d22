import SoroStream.CatchUp
import SoroStream.Lib.Avoids
import SoroStream.Lineage
import SoroStream.TimeShift

namespace SoroStream

open Lib Lib.Rollback Lib.Rollback.Prog Lib.Runs Contract

variable {host : Host} {env : Env host} {w w' w₁ : World} {c c' : Chain} {id : StreamId} {s : Stream} {m m' : Streams}
  {recipient : Address} {claim : Int} {C : Nat} {times : List Nat} {ids : List StreamId} {claims : List Int}
  {events : List (Event host)} {e : Event host}

def World.due (w : World) (id : StreamId) (now : Nat) : Int :=
  ((w.book.streams.lookup id).bind fun s => claimFor true s now).getD 0

/-- The ledger times at which an event claims a positive amount of the stream, one entry for
each withdrawal or item of a batch. -/
def Chain.claimTimes (c : Chain) (id : StreamId) : Event host → List Nat
  | .call env (.stream (.withdraw j recipient)) =>
      if (withdraw j recipient env c.world).value?.isSome ∧ j = id ∧ 0 < c.world.due id env.now then [env.now] else []
  | .call env (.stream (.batchWithdraw ids recipient)) =>
      ((ids.zip ((batchWithdraw ids recipient env c.world).value?.getD [])).filter fun x => x.1 = id ∧ 0 < x.2).map
        fun _ => env.now
  | _ => []

/-- The claim of a stream that has run out and renews once the claim is paid. A single call
looks first at what the sender holds. -/
def RenewsLate (single : Bool) (env : Env host) (w : World) (s : Stream) (claim : Int) : Prop :=
  s.autoRenew = true ∧ s.endTime < env.now ∧
    (single = true → s.deposit ≤ (w.claimed env s claim).balances s.token s.sender)

/-- If there is something to claim, the cooldown since the checkpoint is over, and the claim
does not renew the stream after its end. The single call asks for the first itself, up to
the saturation of the sum. -/
def OnTime (C : Nat) (single : Bool) (env : Env host) (id : StreamId) (w : World) : Prop :=
  ∀ s ∈ w.book.streams.lookup id, ∀ claim ∈ claimFor single s env.now, 0 < claim →
    s.lastWithdrawTime + C ≤ (if single then u64Max else env.now) ∧ ¬RenewsLate single env w s claim

instance (single : Bool) (env : Env host) (w : World) (s : Stream) (claim : Int) :
    Decidable (RenewsLate single env w s claim) :=
  inferInstanceAs (Decidable (_ ∧ _))

instance (C : Nat) (single : Bool) (env : Env host) (id : StreamId) (w : World) :
    Decidable (OnTime C single env id w) :=
  inferInstanceAs (Decidable (∀ s ∈ _, _))

/-- Every withdrawal of the stream that succeeds in an event is on time. -/
def Chain.OnTime (c : Chain) (C : Nat) (id : StreamId) : Event host → Prop
  | .call env (.stream (.withdraw j recipient)) =>
      (withdraw j recipient env c.world).value?.isSome → j = id →
        SoroStream.OnTime C true env id (c.world.awake env.now)
  | .call env (.stream (.batchWithdraw ids recipient)) =>
      (batchWithdraw ids recipient env c.world).value?.isSome →
        Along (batchWithdrawItem recipient) (fun j v => j = id → SoroStream.OnTime C false env id v) env ids
          (c.world.awake env.now)
  | _ => True

instance (c : Chain) (C : Nat) (id : StreamId) (e : Event host) : Decidable (c.OnTime C id e) := by
  cases e with
  | call env call =>
      cases call with
      | stream call =>
          cases call with
          | withdraw | batchWithdraw => exact inferInstanceAs (Decidable (_ → _))
          | _ => exact .isTrue trivial
      | _ => exact .isTrue trivial
  | _ => exact .isTrue trivial

/-- The claims so far keep their distance, and none is later than the checkpoint of the
stream, if it is still live. -/
structure Paced (C : Nat) (id : StreamId) (times : List Nat) (m : Streams) : Prop where
  spaced : times.Pairwise fun t t' => t + C ≤ t'
  marked : ∀ s, m.lookup id = some s → s.Live → ∀ t ∈ times, t ≤ s.lastWithdrawTime

theorem Paced.advance {new : List StreamId} (h : Paced C id times m) (ha : Advances new m m') (hid : id ∉ new) :
    Paced C id times m' := by
  refine ⟨h.spaced, ?_⟩
  intro s' hs' hlive t ht
  obtain ⟨s, hs, hcontinues⟩ := ha id hid s' hs'
  obtain ⟨hlive', hle⟩ := hcontinues hlive
  exact (h.marked s hs hlive' t ht).trans hle

/-- A claim after the cooldown leaves a checkpoint at its own time, or a stream that is over. -/
theorem Paced.claimed {single : Bool} {out : Option Stream} {us : List Transfer} (h : Paced C id times w.book.streams)
    (hw : Accounts env.now w.book.streams) (hwd : Withdrawal env w single id s claim w₁ out us)
    (hcool : s.lastWithdrawTime + C ≤ env.now)
    (hlate : s.autoRenew = true → (single = true → s.deposit ≤ w₁.balances s.token s.sender) → env.now ≤ s.endTime) :
    Paced C id (times ++ [env.now]) (Withdrawal.result w₁ id s claim env.now out us).book.streams := by
  obtain ⟨hid, hsound⟩ := hw id s hwd.stored
  have hbefore : ∀ t ∈ times, t ≤ s.lastWithdrawTime := h.marked s hwd.stored (.inl hwd.active)
  have hnow := hsound.active hwd.active
  constructor
  · refine List.pairwise_append.mpr ⟨h.spaced, List.pairwise_singleton _ _, ?_⟩
    intro t ht t' ht'
    obtain rfl := List.mem_singleton.mp ht'
    exact (Nat.add_le_add_right (hbefore t ht) C).trans hcool
  · intro s' hs' hlive t ht
    have hle : t ≤ env.now := by
      rcases List.mem_append.mp ht with ht | ht
      · exact (hbefore t ht).trans hnow
      · exact (List.mem_singleton.mp ht).le
    suffices hmark : env.now ≤ s'.lastWithdrawTime from hle.trans hmark
    obtain rfl := (hwd.lookup hid).symm.trans hs'
    cases hwd.settled with
    | running hend => exact le_min le_rfl (le_of_lt hend)
    | renewed _ _ hauto hfunds => exact hlate hauto hfunds
    | lapsed => simp [Stream.Live] at hlive

theorem withdraw_cooled {u : Unit} (h : withdraw id recipient env w = .ok u w')
    (hs : w.book.streams.lookup id = some s) : ¬Cooling w s env.now := by
  simp only [withdraw, timestamp, ask, bind_ok, requireRunning_ok, requireAuth_ok, read_ok, okOr_ok, failIf_ok,
    and_assoc, exists_and_left, exists_eq_left', exists_const] at h
  obtain ⟨-, -, r, hr, -, -, -, hcool, -⟩ := h
  obtain rfl := Option.some.inj (hs.symm.trans hr)
  exact hcool

theorem elapsed_of_cooled (hcool : ¬Cooling w s env.now) (hcooldown : Storage.getWithdrawalCooldown w = C)
    (hpos : 0 < C) (hfits : s.lastWithdrawTime + C ≤ u64Max) : s.lastWithdrawTime + C ≤ env.now := by
  rw [Cooling, hcooldown, saturatingAddU64, Checked.satAddNat_of_le hfits] at hcool
  exact not_lt.mp fun hearly => hcool ⟨hpos, hearly⟩

theorem withdraw_paced {u : Unit} (hw : Accounts env.now w.book.streams)
    (hcooldown : Storage.getWithdrawalCooldown w = C) (hC : 0 < C) (hdue : 0 < w.due id env.now)
    (hon : OnTime C true env id (w.awake env.now)) (h : withdraw id recipient env w = .ok u w')
    (hpaced : Paced C id times w.book.streams) : Paced C id (times ++ [env.now]) w'.book.streams := by
  obtain ⟨s, claim, out, us, -, hwd, rfl⟩ := withdraw_claimed h
  have hs : w.book.streams.lookup id = some s := hwd.stored
  have hpos : 0 < claim := by simpa [World.due, hs, hwd.claimed] using hdue
  obtain ⟨hfits, hlate⟩ := hon s hs claim hwd.claimed hpos
  have hcool := elapsed_of_cooled (withdraw_cooled h hs) hcooldown hC hfits
  refine Paced.claimed (w := w.awake env.now) hpaced hw hwd hcool fun hauto hfunds => ?_
  exact not_lt.mp fun hend => hlate ⟨hauto, hend, hfunds⟩

theorem item_paced (hauth : env.auths recipient = true) (hw : Accounts env.now w.book.streams)
    (hpaced : Paced C id times w.book.streams) (hon : OnTime C false env id w) (hpos : 0 < claim)
    (h : batchWithdrawItem recipient id env w = .ok claim w') : Paced C id (times ++ [env.now]) w'.book.streams := by
  obtain ⟨s, w₁, out, us, -, hwd, rfl⟩ := batchWithdrawItem_ok hauth h
  obtain ⟨hcool, hlate⟩ := hon s hwd.stored claim hwd.claimed hpos
  refine hpaced.claimed hw hwd hcool fun hauto _ => ?_
  exact not_lt.mp fun hend => hlate ⟨hauto, hend, fun hsingle => Bool.noConfusion hsingle⟩

theorem items_paced (hauth : env.auths recipient = true) (hw : Accounts env.now w.book.streams)
    (hon : Along (batchWithdrawItem recipient) (fun j v => j = id → OnTime C false env id v) env ids w)
    (h : each (batchWithdrawItem recipient) ids env w = .ok claims w') (hpaced : Paced C id times w.book.streams) :
    Paced C id (times ++ ((ids.zip claims).filter fun x => x.1 = id ∧ 0 < x.2).map fun _ => env.now)
      w'.book.streams := by
  induction ids generalizing w times claims with
  | nil =>
      obtain ⟨rfl, rfl⟩ := each_nil.mp h
      simpa using hpaced
  | cons j ids ih =>
      obtain ⟨claim, v, claims, hfirst, hrest, rfl⟩ := each_cons.mp h
      obtain ⟨hitem, hothers⟩ := hon
      obtain ⟨s, w₁, out, us, -, hwd, hv⟩ := batchWithdrawItem_ok hauth hfirst
      have hacted : Acted env [] w v := hv ▸ withdrawal_acted hwd
      have haccounts := acted_accounts hacted hw
      rw [List.zip_cons_cons, List.filter_cons]
      by_cases htaken : j = id ∧ 0 < claim
      · obtain ⟨rfl, hpos⟩ := htaken
        have hmore := ih haccounts (hothers claim v hfirst) hrest (item_paced hauth hw hpaced (hitem rfl) hpos hfirst)
        simpa [hpos] using hmore
      · have hmore := ih haccounts (hothers claim v hfirst) hrest
          (hpaced.advance (acted_advances hacted hw) List.not_mem_nil)
        simpa only [decide_eq_true_eq, if_neg htaken] using hmore

theorem step_paced (hmay : May c e) (hw : Accounts c.now c.world.book.streams)
    (hcooldown : Storage.getWithdrawalCooldown c.world = C) (hC : 0 < C) (hsame : id ∉ c.made e) (hon : c.OnTime C id e)
    (h : Paced C id times c.world.book.streams) :
    Paced C id (times ++ c.claimTimes id e) (c.step e).world.book.streams := by
  by_cases hnone : c.claimTimes id e = []
  · rw [hnone, List.append_nil]
    exact h.advance (step_advances hmay hw) hsame
  · cases e with
    | treasury | tokens => exact absurd rfl hnone
    | call env call =>
        cases call with
        | config | view => exact absurd rfl hnone
        | stream call =>
            have hnow : Accounts env.now c.world.book.streams := hw.mono hmay.1
            cases call with
            | withdraw j recipient =>
                simp only [Chain.claimTimes] at hnone ⊢
                split at hnone
                · next htaken =>
                    obtain ⟨hok, rfl, hdue⟩ := htaken
                    obtain ⟨u, hv⟩ := Option.isSome_iff_exists.mp hok
                    obtain ⟨w', hrun⟩ := Outcome.value?_eq_some.mp hv
                    have hstep : (c.step (.call env (.stream (.withdraw j recipient)))).world = w' := by
                      simp [Chain.step, Call.exec, StreamCall.exec, bind_apply hrun]
                    rw [if_pos ⟨hok, rfl, hdue⟩, hstep]
                    exact withdraw_paced hnow hcooldown hC hdue (hon hok rfl) hrun h
                · exact absurd rfl hnone
            | batchWithdraw ids recipient =>
                cases hrun : batchWithdraw ids recipient env c.world with
                | err e v => exact absurd (by simp [Chain.claimTimes, hrun, Outcome.value?]) hnone
                | trap => exact absurd (by simp [Chain.claimTimes, hrun, Outcome.value?]) hnone
                | ok claims w' =>
                    have hstep : (c.step (.call env (.stream (.batchWithdraw ids recipient)))).world = w' := by
                      simp [Chain.step, Call.exec, StreamCall.exec, bind_apply hrun]
                    obtain ⟨-, hauth, hitems⟩ := batchWithdraw_ok hrun
                    have halong := hon (by simp [hrun, Outcome.value?])
                    rw [hstep, Chain.claimTimes, hrun]
                    exact items_paced (w := c.world.awake env.now) hauth hnow halong hitems h
            | _ => exact absurd rfl hnone

theorem run_paced (h : Reached host c) (hrun : SystemRun host c events c') (hC : 0 < C)
    (hcooldown : Throughout Chain.step (fun c _ => Storage.getWithdrawalCooldown c.world = C) c events)
    (hsame : Throughout Chain.step (fun c e => id ∉ c.made e) c events)
    (hon : Throughout Chain.step (fun c e => c.OnTime C id e) c events) :
    Paced C id (outputs Chain.step (fun c e => c.claimTimes id e) c events) c'.world.book.streams := by
  induction hrun with
  | nil => exact ⟨List.Pairwise.nil, fun _ _ _ t ht => absurd ht List.not_mem_nil⟩
  | @snoc es c₁ e hr hmay ih =>
      rw [hr.throughout_snoc] at hcooldown hsame hon
      rw [hr.outputs_snoc]
      exact step_paced hmay (reached_accounts (h.run hr)) hcooldown.2 hC hsame.2 hon.2
        (ih hcooldown.1 hsame.1 hon.1)

/-- In a run with one cooldown, whose withdrawals of a stream are all on time, any two claims
of it are at least the cooldown apart. A record made under the same ID is another stream. -/
theorem claims_keep_distance (h : Reached host c) (hrun : SystemRun host c events c') (hC : 0 < C)
    (hcooldown : Throughout Chain.step (fun c _ => Storage.getWithdrawalCooldown c.world = C) c events)
    (hsame : Throughout Chain.step (fun c e => id ∉ c.made e) c events)
    (hon : Throughout Chain.step (fun c e => c.OnTime C id e) c events) :
    (outputs Chain.step (fun c e => c.claimTimes id e) c events).Pairwise fun t t' => t + C ≤ t' :=
  (run_paced h hrun hC hcooldown hsame hon).spaced

namespace Sample

def cooled : Chain := genesis.after
  [configure [4] 1 (.initializeContract (party 4) "1.0.0"), configure [4] 2 (.setWithdrawalCooldown (party 4) 1000),
    opening 0 0]

/-- A withdrawal, one that comes too early and, after the cooldown, one in a batch. -/
def patient : List (Event site) :=
  [call [3] 1010 (.withdraw streamId (party 3)), call [3] 1500 (.withdraw streamId (party 3)),
    call [3] 2010 (.batchWithdraw [streamId] (party 3))]

end Sample

example : outputs Chain.step (fun c e => c.claimTimes Sample.streamId e) Sample.cooled Sample.patient =
    [1010, 2010] := by
  decide +kernel

theorem sample_claims_keep_distance :
    (outputs Chain.step (fun c e => c.claimTimes Sample.streamId e) Sample.cooled Sample.patient).Pairwise
      fun t t' => t + 1000 ≤ t' :=
  claims_keep_distance (reached_after Sample.genesis_fresh (by decide)) (run_of_inOrder (by decide)) (by decide)
    (by decide +kernel) (by decide +kernel) (by decide +kernel)

namespace Sample

def impatient : List (Event site) :=
  [call [3] 1010 (.batchWithdraw [streamId] (party 3)), call [3] 1020 (.batchWithdraw [streamId] (party 3))]

def cooledRenewing : Chain := genesis.after
  [configure [4] 1 (.initializeContract (party 4) "1.0.0"), configure [4] 2 (.setWithdrawalCooldown (party 4) 1000),
    recurring (terms 0 0).amount]

def overdue : List (Event site) :=
  [call [2, 3] 5010 (.withdraw streamId (party 3)), call [2, 3] 5010 (.withdraw streamId (party 3))]

end Sample

/-- Two batches claim within the cooldown, where a single withdrawal instead of the second
one is refused. Two single withdrawals claim in the same ledger when the first of them
renews the stream: its checkpoint is then the old end. -/
theorem claims_crowd_cooldown :
    outputs Chain.step (fun c e => c.claimTimes Sample.streamId e) Sample.cooled Sample.impatient = [1010, 1020] ∧
    (∃ v, withdraw Sample.streamId (Sample.party 3) (Sample.signed [3] 1020)
      (Sample.cooled.step (Sample.call [3] 1010 (.batchWithdraw [Sample.streamId] (Sample.party 3)))).world =
        .err .withdrawalCooldownActive v) ∧
    outputs Chain.step (fun c e => c.claimTimes Sample.streamId e) Sample.cooledRenewing Sample.overdue = [5010, 5010] ∧
    ¬∀ (host : Host) (c c' : Chain) (events : List (Event host)) (C : Nat) (id : StreamId), Reached host c →
      SystemRun host c events c' → 0 < C →
      Throughout Chain.step (fun c _ => Storage.getWithdrawalCooldown c.world = C) c events →
      Throughout Chain.step (fun c e => id ∉ c.made e) c events →
      (outputs Chain.step (fun c e => c.claimTimes id e) c events).Pairwise fun t t' => t + C ≤ t' := by
  have hbatches : outputs Chain.step (fun c e => c.claimTimes Sample.streamId e) Sample.cooled Sample.impatient =
      [1010, 1020] := by decide +kernel
  refine ⟨hbatches, ⟨_, rfl⟩, by decide +kernel, ?_⟩
  intro h
  have hspaced := h Sample.site Sample.cooled _ Sample.impatient 1000 Sample.streamId
    (reached_after Sample.genesis_fresh (by decide)) (run_of_inOrder (by decide)) (by decide) (by decide +kernel)
    (by decide +kernel)
  rw [hbatches] at hspaced
  exact absurd hspaced (by decide)

end SoroStream
