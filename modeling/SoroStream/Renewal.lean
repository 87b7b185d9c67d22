import SoroStream.Balance
import SoroStream.Completion

namespace SoroStream

open Lib Lib.Rollback Lib.Rollback.Prog Lib.Runs Contract

variable {host : Host} {env : Env host} {w w' v : World} {c c' : Chain} {e : Event host} {id j : StreamId}
  {s q : Stream} {token : Address} {made : List Stream} {streams : Streams} {ts us : List Transfer} {claim : Int}

def Denominated (id : StreamId) (token : Address) (streams : Streams) : Prop :=
  ∀ q, streams.lookup id = some q → q.token = token

namespace Denominated

theorem insert (h : Denominated id token streams) (hq : id = j → q.token = token) :
    Denominated id token (streams.insert j q) := by
  intro r hr
  by_cases hj : id = j
  · have hsame := hq hj
    subst hj
    rw [Finmap.lookup_insert] at hr
    obtain rfl := Option.some.inj hr
    exact hsame
  · rw [Finmap.lookup_insert_of_ne _ hj] at hr
    exact h r hr

theorem save (h : Denominated id token streams) (hs : streams.lookup j = some s) (hid : s.id = j) (hkeeps : q.id = s.id)
    (hq : q.token = s.token) : Denominated id token (streams.insert q.id q) := by
  refine h.insert ?_
  intro hj
  rw [hkeeps, hid] at hj
  subst hj
  exact hq.trans (h s hs)

theorem erase (h : Denominated id token streams) (j : StreamId) : Denominated id token (streams.erase j) := by
  intro r hr
  by_cases hj : id = j
  · subst hj
    simp at hr
  · rw [Finmap.lookup_erase_ne hj] at hr
    exact h r hr

end Denominated

theorem action_denominated {b : Book} (h : Action env w made b ts) (hw : Accounts env.now w.book.streams)
    (hmade : id ∉ made.map Stream.id) (hid : Denominated id token w.book.streams) : Denominated id token b.streams := by
  cases h with
  | nonceMarked | batchCounted | delegated => exact hid
  | opened s => exact hid.insert fun heq => absurd heq (List.ne_of_not_mem_cons hmade)
  | withdrawn single j s claim w₁ out us h =>
      cases out with
      | none => exact hid.erase j
      | some q =>
          have hset := h.settled
          have htoken : q.token = s.token := by cases hset <;> rfl
          exact hid.save h.stored (hw j s h.stored).1 hset.id_eq htoken
  | handedOver j s claim w₁ recipient h =>
      refine hid.save (q := { s.advance claim _ with recipient := recipient }) h.stored (hw j s h.stored).1
        (advance_id s claim _) (advance_token s claim _)
  | closed j s | archived j s => exact hid.erase j
  | split j s cancelAmount earned streamed h =>
      have hcancelled : Denominated id token (w.book.streams.insert s.id { s with status := .cancelled }) :=
        hid.save (q := { s with status := .cancelled }) h.stored (hw j s h.stored).1 rfl rfl
      exact hcancelled.insert fun heq => absurd heq (List.ne_of_not_mem_cons hmade)
  | toppedUp j s caller amount h =>
      exact hid.save (q := s.toppedUp _) h.stored (hw j s h.stored).1 rfl rfl
  | paused j s hs =>
      exact hid.save (q := { s with status := .paused, lastPauseTime := env.now }) hs (hw j s hs).1 rfl rfl
  | resumed j s hs => exact hid.save (q := resumed s (env.now - s.lastPauseTime)) hs (hw j s hs).1 rfl rfl
  | amended j s metadata autoRenew hs =>
      exact hid.save (q := { s with metadata, autoRenew }) hs (hw j s hs).1 rfl rfl

theorem acts_denominated (h : Acts env made w w') (hw : Accounts env.now w.book.streams)
    (hmade : id ∉ made.map Stream.id) (hid : Denominated id token w.book.streams) :
    Accounts env.now w'.book.streams ∧ Denominated id token w'.book.streams := by
  induction h with
  | refl w => exact ⟨hw, hid⟩
  | tail _ hlast ih =>
      rw [List.map_append, List.mem_append, not_or] at hmade
      obtain ⟨haccounts, hmid⟩ := ih hw hmade.1 hid
      refine ⟨acted_accounts hlast haccounts, ?_⟩
      obtain ⟨b, ts, w₁, ha, -, rfl⟩ := hlast
      exact action_denominated ha haccounts hmade.2 hmid

theorem step_denominated (hmay : May c e) (hw : Accounts c.now c.world.book.streams) (hmade : id ∉ c.made e)
    (hid : Denominated id token c.world.book.streams) : Denominated id token (c.step e).world.book.streams := by
  rcases step_cases hmay with ⟨-, haside⟩ | ⟨env, call, made, v, rfl, -, hids, -, haside, hacts⟩
  · rwa [haside.book]
  · rw [← hids] at hmade
    refine (acts_denominated hacts ?_ hmade (haside.book ▸ hid)).2
    rw [haside.book]
    exact hw.mono hmay.1

def Running (w : World) (id : StreamId) : Prop := ∃ q, w.book.streams.lookup id = some q ∧ q.Live

inductive SettlingCall : StreamCall → Prop
  | withdraw (streamId : StreamId) (recipient : Address) : SettlingCall (.withdraw streamId recipient)
  | batchWithdraw (streamIds : List StreamId) (recipient : Address) : SettlingCall (.batchWithdraw streamIds recipient)
  | cancelStream (streamId : StreamId) (caller : Address) : SettlingCall (.cancelStream streamId caller)
  | batchCancelStream (streamIds : List StreamId) (sender : Address) :
      SettlingCall (.batchCancelStream streamIds sender)
  | recipientTerminate (streamId : StreamId) (recipient : Address) :
      SettlingCall (.recipientTerminate streamId recipient)

structure Stream.Clean (s : Stream) (now : Nat) (token : Address) : Prop where
  token_eq : s.token = token
  counted : s.Unforfeited
  exact_cycle : s.autoRenew = true → s.endTime ≤ now → s.ExactCycle

/-- An item of a batch counts all it claims, and a cycle is as long as the one before it. -/
theorem Turned.clean {w₁ : World} {out : Option Stream} (h : Turned env w v w' id s claim false w₁ out us)
    (hs : s.Clean env.now token) (hq : out = some q) : q.Clean env.now token := by
  subst hq
  have hset := h.settled
  have hpos := h.claim_nonneg
  cases hset with
  | running hbefore =>
      have hflow : claim = s.flowRate * (((min env.now s.endTime : Nat) : Int) - s.lastWithdrawTime) :=
        (earnedAt_eq h.claimed).trans (flowed_eq h.sound.toAccounted (h.sound.active h.active))
      refine ⟨hs.token_eq, ?_, hs.exact_cycle⟩
      change (s.checkpoint claim env.now).totalWithdrawn =
        s.flowRate * (((min env.now s.endTime : Nat) : Int) - s.startTime)
      rw [checkpoint_total hpos, hs.counted, hflow]
      ring
  | renewed hend horder hauto =>
      refine ⟨hs.token_eq, ?_, fun _ _ => ?_⟩
      · simp [Stream.Unforfeited, Stream.renewed]
      · have hlength : ((s.endTime + (s.endTime - s.startTime) : Nat) : Int) - s.endTime = s.endTime - s.startTime := by
          have horder : s.startTime ≤ s.endTime := horder
          omega
        change s.deposit = s.flowRate * (((s.endTime + (s.endTime - s.startTime) : Nat) : Int) - s.endTime)
        rw [hlength]
        exact hs.exact_cycle hauto hend
  | lapsed _ _ _ hlooks => exact absurd hlooks (by simp)

theorem Turned.stays_active {w₁ : World} {out : Option Stream} (h : Turned env w v w' id s claim false w₁ out us)
    (hauto : s.autoRenew = true) :
    ∃ q, w'.book.streams.lookup id = some q ∧ q.autoRenew = true ∧ q.status = .active := by
  have hlookup := h.lookup
  have hset := h.settled
  cases hset with
  | running | renewed => exact ⟨_, hlookup, hauto, h.active⟩
  | lapsed _ _ _ hlooks => exact Bool.noConfusion hlooks
  | finished _ _ hnot => exact Bool.noConfusion (hauto.symm.trans hnot)

section

variable {ids : List StreamId} {recipient : Address} {claims : List Int} (hw : Accounts env.now w.book.streams)
  (hsenders : SendersOutside host w.book.streams) (hs : w.book.streams.lookup id = some s)

include hw hsenders hs

theorem batchWithdraw_clean (hfee : FeeBounded w.config) (hset : FeePaid w) (hclean : s.Clean env.now token)
    (h : batchWithdraw ids recipient env w = .ok claims w') : Balanced host token id w w' := by
  have hstart : ∀ q, (w.awake env.now).book.streams.lookup id = some q → q.Clean env.now token := by
    intro q hq
    obtain rfl := Option.some.inj (hs.symm.trans hq)
    exact hclean
  -- the record stays clean from item to item, whichever stream the item is about
  refine (batchWithdraw_turns id (fun v => (∀ q, v.book.streams.lookup id = some q → q.Clean env.now token) ∧
    Balanced host token id w v) ?_ ?_ hw hsenders ⟨hstart, .of_awake (.refl _)⟩ h).2
  · rintro v v' hidle ⟨hready, hbalanced⟩
    exact ⟨fun q hq => hready q (hidle.record.symm.trans hq), hbalanced.trans hidle.balanced⟩
  · rintro v v' r claim w₁ out us hturned ⟨hready, hbalanced⟩
    have hr := hready r hturned.stored
    have hturn := hturned.balanced hfee hset hr.counted fun hauto hend _ => hr.exact_cycle hauto hend
    rw [hr.token_eq] at hturn
    exact ⟨fun q hq => hturned.clean hr (hturned.lookup.symm.trans hq), hbalanced.trans hturn⟩

/-- A batch that leaves a stream that would renew inactive has not come to it. -/
theorem batchWithdraw_skips (hauto : s.autoRenew = true) (hover : ¬StaysActive w' id)
    (h : batchWithdraw ids recipient env w = .ok claims w') : Balanced host token id w w' := by
  have hstart : ∃ q, (w.awake env.now).book.streams.lookup id = some q ∧ q.autoRenew = true ∧
      (q.status = .active ∨ Balanced host token id w (w.awake env.now)) :=
    ⟨s, hs, hauto, .inr (.of_awake (.refl _))⟩
  have hend : ∃ q, w'.book.streams.lookup id = some q ∧ q.autoRenew = true ∧
      (q.status = .active ∨ Balanced host token id w w') := by
    refine batchWithdraw_turns id (fun v => ∃ q, v.book.streams.lookup id = some q ∧ q.autoRenew = true ∧
      (q.status = .active ∨ Balanced host token id w v)) ?_ ?_ hw hsenders hstart h
    · rintro v v' hidle ⟨q, hq, hrenews, hactive | hbalanced⟩
      · exact ⟨q, hidle.record.trans hq, hrenews, .inl hactive⟩
      · exact ⟨q, hidle.record.trans hq, hrenews, .inr (hbalanced.trans hidle.balanced)⟩
    · rintro v v' r claim w₁ out us hturned ⟨q, hq, hrenews, -⟩
      obtain rfl := Option.some.inj (hq.symm.trans hturned.stored)
      obtain ⟨q', hq', hrenews', hactive⟩ := hturned.stays_active hrenews
      exact ⟨q', hq', hrenews', .inl hactive⟩
  obtain ⟨q, hq, -, hactive | hbalanced⟩ := hend
  · exact absurd ⟨q, hq, hactive⟩ hover
  · exact hbalanced

theorem batchWithdraw_balanced (hfee : FeeBounded w.config) (hset : FeePaid w) (hcounted : s.Unforfeited)
    (hexact : s.autoRenew = true → s.endTime ≤ env.now → StaysActive w' id → s.ExactCycle)
    (h : batchWithdraw ids recipient env w = .ok claims w') : Balanced host s.token id w w' := by
  by_cases hskips : s.autoRenew = true ∧ ¬StaysActive w' id
  · exact batchWithdraw_skips hw hsenders hs hskips.1 hskips.2 h
  · refine batchWithdraw_clean hw hsenders hs hfee hset ⟨rfl, hcounted, fun hauto hend => ?_⟩ h
    exact hexact hauto hend (not_not.mp fun hover => hskips ⟨hauto, hover⟩)

theorem withdraw_balanced (hfee : FeeBounded w.config) (hset : FeePaid w) (hcounted : s.Unforfeited)
    (hexact : s.autoRenew = true → s.endTime ≤ env.now → StaysActive w' id → s.ExactCycle)
    (h : withdraw id recipient env w = .ok () w') : Balanced host s.token id w w' := by
  obtain ⟨r, claim, w₁, out, us, hturned⟩ := withdraw_turned hw hsenders h
  obtain rfl := Option.some.inj (hs.symm.trans hturned.stored)
  exact hturned.balanced hfee hset hcounted hexact

end

structure Renews (env : Env host) (w : World) (id : StreamId) (s : Stream) (call : StreamCall) : Prop where
  withdraws : WithdrawCall call
  named : id ∈ call.targets
  renewing : s.autoRenew = true
  ended : s.endTime ≤ env.now
  goes_on : ∃ made w', call.exec env w = .ok made w' ∧ StaysActive w' id

theorem batchCancelStream_balanced {ids : List StreamId} {sender : Address} {results : List (Except StreamError Unit)}
    (hw : Accounts env.now w.book.streams) (hs : w.book.streams.lookup id = some s)
    (h : batchCancelStream ids sender env w = .ok results w') : Balanced host s.token id w w' := by
  obtain ⟨-, hitems⟩ := batchCancelStream_ok h
  refine (each_inv (fun v => Accounts env.now v.book.streams ∧ (∀ q, v.book.streams.lookup id = some q → q = s) ∧
    Balanced host s.token id w v) ?_ ⟨hw, fun q hq => Option.some.inj (hq.symm.trans hs), .refl w⟩ hitems).2.2
  rintro k - v result v' ⟨haccounts, hsame, hbalanced⟩ hitem
  rcases batchCancelItem_cases hitem with rfl | ⟨r, amount, hr, -, hlive, hearned, -, rfl⟩
  · exact ⟨haccounts, hsame, hbalanced⟩
  · obtain ⟨hid, hsound⟩ := haccounts k r hr
    refine ⟨haccounts.erase _, ?_⟩
    by_cases hk : id = k
    · subst hk
      obtain rfl := hsame r hr
      have hamount := earnedAt_eq hearned
      have hclosed : Balanced host r.token id v (closed host v id r amount) :=
        closed_balanced hid hsound hr hlive (hamount ▸ flowed_nonneg hsound.rate _)
          (hamount ▸ hsound.toAccounted.flowed_le_remaining _)
      refine ⟨fun q hq => ?_, hbalanced.trans hclosed⟩
      simp [closed] at hq
    · have hidle : Idle id v (closed host v k r amount) := closed_idle hid hk
      exact ⟨fun q hq => hsame q (hidle.record.symm.trans hq), hbalanced.trans hidle.balanced⟩

theorem split_cancels {b : Book} {tau : Nat} {deposit : Int} (hid : s.id = id)
    (hne : id ≠ (splitSuccessor host id s tau deposit).id) :
    (splitBook host b id s tau deposit).streams.lookup id = some { s with status := .cancelled } := by
  subst hid
  exact (Finmap.lookup_insert_of_ne _ hne).trans (Finmap.lookup_insert b.streams)

/-- Every call on the stream that settles it, or lets it run on, pays out what it takes
off the stream's balance. -/
theorem streamCall_balanced (hw : Accounts env.now w.book.streams) (hsenders : SendersOutside host w.book.streams)
    (hfee : FeeBounded w.config) (hset : FeePaid w) (hs : w.book.streams.lookup id = some s) (hlive : s.Live)
    (hcounted : s.Unforfeited) {call : StreamCall} (hexact : Renews env w id s call → s.ExactCycle)
    {new : List StreamId} (hnew : id ∉ new) (h : call.exec env w = .ok new w')
    (hafter : Running w' id ∨ SettlingCall call) : Balanced host s.token id w w' := by
  obtain ⟨hid, hsound⟩ := hw id s hs
  by_cases htarget : id ∈ call.targets
  swap
  · exact (streamCall_idle hw hs htarget hnew h).balanced
  have hrenews : WithdrawCall call → s.autoRenew = true → s.endTime ≤ env.now → StaysActive w' id → s.ExactCycle :=
    fun hwithdraws hauto hend hactive => hexact ⟨hwithdraws, htarget, hauto, hend, new, w', h, hactive⟩
  cases call with
  | createStream a | batchCreateStream a => simp [StreamCall.targets] at htarget
  | withdraw j recipient =>
      obtain rfl := List.mem_singleton.mp htarget
      obtain ⟨_, _, h, -, rfl⟩ := bind_ok.mp h
      exact withdraw_balanced hw hsenders hs hfee hset hcounted (hrenews (.withdraw _ _)) h
  | batchWithdraw ids recipient =>
      obtain ⟨_, _, h, -, rfl⟩ := bind_ok.mp h
      exact batchWithdraw_balanced hw hsenders hs hfee hset hcounted (hrenews (.batchWithdraw _ _)) h
  | cancelStream j caller =>
      obtain rfl := List.mem_singleton.mp htarget
      obtain ⟨_, _, h, -, rfl⟩ := bind_ok.mp h
      obtain ⟨-, r, amount, hr, -, -, hearned, -, rfl⟩ := cancelStream_ok.mp h
      obtain rfl := Option.some.inj (hs.symm.trans hr)
      have hamount := earnedAt_eq hearned
      exact closed_balanced hid hsound hs hlive (hamount ▸ flowed_nonneg hsound.rate _)
        (hamount ▸ hsound.toAccounted.flowed_le_remaining _)
  | batchCancelStream ids sender =>
      obtain ⟨_, _, h, -, rfl⟩ := bind_ok.mp h
      exact batchCancelStream_balanced hw hs h
  | recipientTerminate j recipient =>
      obtain rfl := List.mem_singleton.mp htarget
      obtain ⟨_, _, h, -, rfl⟩ := bind_ok.mp h
      obtain ⟨-, -, r, amount, hr, -, -, -, hclaim, -, rfl⟩ := recipientTerminate_ok.mp h
      obtain rfl := Option.some.inj (hs.symm.trans hr)
      have hpos : 0 ≤ amount := claim_nonneg hsound.toAccounted (share_cases (.inr hclaim))
      have hle : amount ≤ s.remaining := by
        have hremaining := hsound.toAccounted.remaining_nonneg
        have hflow := hsound.toAccounted.flowed_le_remaining (s.clock env.now)
        rcases share_cases (.inr hclaim) with rfl | rfl
        · exact hflow
        · exact hremaining
      exact (closed_balanced (w := w.awake env.now) hid hsound hs hlive hpos hle).of_awake
  | transferRecipient j current recipient =>
      obtain rfl := List.mem_singleton.mp htarget
      obtain ⟨_, _, h, -, rfl⟩ := bind_ok.mp h
      obtain ⟨-, r, claim, w₁, -, hh, rfl⟩ := transferRecipient_ok h
      obtain rfl := Option.some.inj (hs.symm.trans hh.stored)
      exact (handedOver_balanced (w := w.awake env.now) hid hsound hfee hset hh).of_awake
  | partialCancelStream j caller cancelAmount =>
      obtain rfl := List.mem_singleton.mp htarget
      obtain ⟨newId, _, h, rfl, rfl⟩ := bind_ok.mp h
      obtain ⟨-, r, earned, streamed, -, rfl, hsplit, rfl⟩ := partialCancelStream_ok h
      obtain rfl := Option.some.inj (hs.symm.trans hsplit.stored)
      rcases hafter with ⟨q, hq, hlive'⟩ | hsettles
      · obtain rfl := Option.some.inj ((split_cancels hid (List.ne_of_not_mem_cons hnew)).symm.trans hq)
        simp [Stream.Live] at hlive'
      · cases hsettles
  | topUp j caller token amount =>
      obtain rfl := List.mem_singleton.mp htarget
      obtain ⟨_, _, h, -, rfl⟩ := bind_ok.mp h
      obtain ⟨-, r, -, ht, rfl⟩ := topUp_ok h
      obtain rfl := Option.some.inj (hs.symm.trans ht.stored)
      exact (toppedUp_balanced (w := w.awake env.now) hid ht).of_awake
  | pauseStream j sender =>
      obtain rfl := List.mem_singleton.mp htarget
      obtain ⟨_, _, h, -, rfl⟩ := bind_ok.mp h
      obtain ⟨-, r, hr, -, -, -, rfl⟩ := pauseStream_ok h
      obtain rfl := Option.some.inj (hs.symm.trans hr)
      exact (saved_balanced (w := w.awake env.now) (q := { s with status := .paused, lastPauseTime := env.now }) hid hs
        hlive (.inr rfl) rfl).of_awake
  | resumeStream j sender =>
      obtain rfl := List.mem_singleton.mp htarget
      obtain ⟨_, _, h, -, rfl⟩ := bind_ok.mp h
      obtain ⟨-, r, hr, -, -, -, rfl⟩ := resumeStream_ok h
      obtain rfl := Option.some.inj (hs.symm.trans hr)
      exact (saved_balanced (w := w.awake env.now) (q := resumed s (env.now - s.lastPauseTime)) hid hs hlive (.inl rfl)
        rfl).of_awake
  | archiveStream j caller =>
      obtain rfl := List.mem_singleton.mp htarget
      obtain ⟨_, _, h, -, rfl⟩ := bind_ok.mp h
      obtain ⟨_, _, rfl⟩ := archiveStream_ok h
      rcases hafter with ⟨q, hq, -⟩ | hsettles
      · simp at hq
      · cases hsettles
  | delegate sender j operator =>
      obtain ⟨_, _, h, -, rfl⟩ := bind_ok.mp h
      obtain ⟨r, -, -, -, rfl⟩ := delegate_ok h
      exact .of_saved rfl rfl
  | revokeDelegate sender j =>
      obtain ⟨_, _, h, -, rfl⟩ := bind_ok.mp h
      obtain ⟨r, -, -, -, rfl⟩ := revokeDelegate_ok h
      exact .of_saved rfl rfl
  | updateMetadata sender j metadata =>
      obtain rfl := List.mem_singleton.mp htarget
      obtain ⟨_, _, h, -, rfl⟩ := bind_ok.mp h
      obtain ⟨r, hr, -, -, -, rfl⟩ := updateMetadata_ok h
      obtain rfl := Option.some.inj (hs.symm.trans hr)
      exact saved_balanced (q := { s with metadata }) hid hs hlive hlive rfl
  | cancelAutoRenew sender j =>
      obtain rfl := List.mem_singleton.mp htarget
      obtain ⟨_, _, h, -, rfl⟩ := bind_ok.mp h
      obtain ⟨r, hr, -, -, rfl⟩ := cancelAutoRenew_ok h
      obtain rfl := Option.some.inj (hs.symm.trans hr)
      exact saved_balanced (q := { s with autoRenew := false }) hid hs hlive hlive rfl

inductive OpeningCall : StreamCall → Prop
  | createStream (a : CreateArgs) : OpeningCall (.createStream a)
  | batchCreateStream (a : BatchArgs) : OpeningCall (.batchCreateStream a)

/-- A new record is live and has paid out nothing, and an opening pays its deposit in. -/
theorem exec_made {call : StreamCall} {ids : List StreamId} (h : call.exec env w = .ok ids w') (hid : id ∈ ids) :
    ∃ q, w'.book.streams.lookup id = some q ∧ (q.Live ∧ q.totalWithdrawn = 0) ∧
      (OpeningCall call → w.book.streams.lookup id = none ∧ Balanced host q.token id w w') := by
  cases call with
  | createStream a =>
      obtain ⟨newId, _, h, rfl, rfl⟩ := bind_ok.mp h
      obtain ⟨-, rfl, fees, hc, rfl⟩ := createStream_ok h
      obtain rfl := List.mem_singleton.mp hid
      refine ⟨createdStream host a env.now, Finmap.lookup_insert _, ⟨.inl rfl, rfl⟩, fun _ => ⟨hc.free, ?_⟩⟩
      exact opened_balanced (w := (w.awake env.now).withBook (w.book.markNonce a.sender a.nonce.val)) hc.opening hc.free
        (creationFees_payer hc.fees_eq)
  | batchCreateStream a =>
      obtain ⟨hids, -, -⟩ := batchCreateStream_acts h
      obtain ⟨-, hb, hitems⟩ := batchCreateStream_ok h
      rw [hids] at hid
      obtain ⟨entry, hentry, hsame⟩ := List.mem_map.mp hid
      let w₁ := (w.awake env.now).withBook (w.book.countBatch a.sender (a.nonce.val + 1))
      have hfree : w₁.book.streams.lookup id = none := hsame ▸ hb.free entry hentry
      obtain ⟨q, hq, hnew, hbalanced⟩ :=
        batchItems_balanced (w := w₁) hb.signed hb.long hb.fits hb.distinct hb.affordable hid hfree hitems
      exact ⟨q, hq, hnew, fun _ => ⟨hfree, hbalanced⟩⟩
  | partialCancelStream j caller cancelAmount =>
      obtain ⟨newId, _, h, rfl, rfl⟩ := bind_ok.mp h
      obtain ⟨-, s, earned, streamed, -, rfl, hsplit, rfl⟩ := partialCancelStream_ok h
      obtain rfl := List.mem_singleton.mp hid
      exact ⟨_, Finmap.lookup_insert _, ⟨.inl rfl, rfl⟩, fun hopen => nomatch hopen⟩
  | _ =>
      obtain ⟨_, _, -, rfl, -⟩ := bind_ok.mp h
      simp at hid

/-- An event that finds the stream going on, nothing of it forfeited, fees with somewhere
to go and, where it renews the stream, a cycle that uses up the deposit. -/
structure Tended (id : StreamId) (c : Chain) (e : Event host) : Prop where
  may : May c e
  unmade : id ∉ c.made e
  fee : FeePaid c.world
  record : ∃ s, c.world.book.streams.lookup id = some s ∧ s.Live ∧ s.Unforfeited ∧
    ∀ env call, e = .call env (.stream call) → Renews env c.world id s call → s.ExactCycle

theorem Tended.balanced (ht : Tended id c e) (h : Reached host c) (htoken : Denominated id token c.world.book.streams)
    (hafter : Running (c.step e).world id ∨ ∃ env call, e = .call env (.stream call) ∧ SettlingCall call) :
    Balanced host token id c.world (c.step e).world := by
  obtain ⟨s, hs, hlive, hcounted, hexact⟩ := ht.record
  rcases step_cases ht.may with ⟨-, haside⟩ | ⟨env, call, made, v, rfl, hok, -, -, -, -⟩
  · exact haside.idle.balanced
  · have hsolvent := aside_solvent ht.may.1 (.refl _) (reached_solvent h)
    have hcall : Running (c.step (.call env (.stream call))).world id ∨ SettlingCall call := by
      rcases hafter with hrunning | ⟨env', call', heq, hsettles⟩
      · exact .inl hrunning
      · cases heq
        exact .inr hsettles
    exact htoken s hs ▸ streamCall_balanced hsolvent.accounts (reached_senders h) hsolvent.fees ht.fee hs hlive hcounted
      (hexact env call rfl) ht.unmade hok hcall

/-- As long as the stream goes on, its balance and its payments make up for each other. -/
theorem run_balanced {events : List (Event host)} (h : Reached host c)
    (hrun : Run (Tended id) Chain.step c events c') (htoken : Denominated id token c.world.book.streams) :
    Reached host c' ∧ Denominated id token c'.world.book.streams ∧
      (Running c'.world id → Balanced host token id c.world c'.world) := by
  refine hrun.inv (fun c' => Reached host c' ∧ Denominated id token c'.world.book.streams ∧
    (Running c'.world id → Balanced host token id c.world c'.world)) ⟨h, htoken, fun _ => .refl _⟩ ?_
  rintro c' e ⟨hreached, hdenominated, hbalanced⟩ ht
  refine ⟨hreached.next ht.may, step_denominated ht.may (reached_accounts hreached) ht.unmade hdenominated, ?_⟩
  intro hrunning
  obtain ⟨s, hs, hlive, -⟩ := ht.record
  exact (hbalanced ⟨s, hs, hlive⟩).trans (ht.balanced hreached hdenominated (.inl hrunning))

theorem heldFor_over (h : ¬Running w id) : heldFor w id = 0 := by
  cases hs : w.book.streams.lookup id with
  | none => exact heldFor_none hs
  | some s => exact heldFor_dead hs fun hlive => h ⟨s, hs, hlive⟩

/-- What a stream takes: `e` makes its record in `c`, `events` tend it, and `call` ends it. -/
structure Lifetime (c : Chain) (e : Event host) (id : StreamId) (s : Stream) (events : List (Event host)) (c' : Chain)
    (env : Env host) (call : StreamCall) : Prop where
  may : May c e
  makes : id ∈ c.made e
  record : (c.step e).world.book.streams.lookup id = some s
  tended : Run (Tended id) Chain.step (c.step e) events c'
  last : Tended id c' (.call env (.stream call))
  settles : SettlingCall call
  ended : ¬Running (c'.step (.call env (.stream call))).world id

/-- Between two worlds the contract pays out on the stream's account what others pay in,
and `more`. -/
def PaysOut (host : Host) (token : Address) (id : StreamId) (w w' : World) (more : Int) : Prop :=
  ∃ ts, w'.log = w.log ++ ts ∧
    spent host.contract token (onAccount id ts) = paidIn host token (onAccount id ts) + more

theorem Balanced.paysOut {more : Int} (h : Balanced host token id w w') (hbefore : heldFor w id = more)
    (hafter : heldFor w' id = 0) : PaysOut host token id w w' more := by
  obtain ⟨ts, hlog, hsum⟩ := h
  exact ⟨ts, hlog, by omega⟩

namespace Lifetime

variable {events : List (Event host)} {call : StreamCall}

theorem balanced (h : Lifetime c e id s events c' env call) (hc : Reached host c) :
    Balanced host s.token id (c.step e).world (c'.step (.call env (.stream call))).world := by
  have htoken : Denominated id s.token (c.step e).world.book.streams := by
    intro q hq
    obtain rfl := Option.some.inj (h.record.symm.trans hq)
    rfl
  obtain ⟨hreached, hdenominated, hbalanced⟩ := run_balanced (hc.next h.may) h.tended htoken
  obtain ⟨q, hq, hlive, -⟩ := h.last.record
  exact (hbalanced ⟨q, hq, hlive⟩).trans (h.last.balanced hreached hdenominated (.inr ⟨env, call, rfl, h.settles⟩))

/-- From its making on, the stream pays out its deposit and what is paid in later. -/
theorem paysOut (h : Lifetime c e id s events c' env call) (hc : Reached host c) :
    PaysOut host s.token id (c.step e).world (c'.step (.call env (.stream call))).world s.deposit := by
  refine (h.balanced hc).paysOut ?_ (heldFor_over h.ended)
  rcases step_cases h.may with ⟨hmade, -⟩ | ⟨env', call', made, v, rfl, hok, -⟩
  · have hmakes := h.makes
    rw [hmade] at hmakes
    simp at hmakes
  · obtain ⟨q, hq, hnew, -⟩ := exec_made hok h.makes
    obtain rfl := Option.some.inj (h.record.symm.trans hq)
    rw [heldFor_live h.record hnew.1, Stream.remaining, hnew.2, sub_zero]

end Lifetime

theorem renewal_outflow {r : Stream} (hsender : r.sender ≠ host.contract) :
    outflow host r.token [renewalTransfer host r] = -r.deposit := by
  simp [outflow, spent_cons, received_cons, renewalTransfer, hsender]

/-- A renewal pays out the claim, less a fee that nobody takes, and takes in a deposit. -/
theorem Turned.renewal_flow {single : Bool} {w₁ : World} {out : Option Stream}
    (h : Turned env w v w' id s claim single w₁ out us) (hfee : FeeBounded w.config) (hend : s.endTime ≤ env.now)
    (hauto : s.autoRenew = true) (hactive : StaysActive w' id) :
    outflow host s.token (claimedTransfers host w s claim ++ us) = claim - retainedFee host w s claim - s.deposit := by
  have hclaim := claimed_outflow hfee h.claim_nonneg h.recipient
  obtain ⟨q, hq, hstatus⟩ := hactive
  have hlookup := h.lookup.symm.trans hq
  have hsettled := h.settled
  rw [outflow_append, hclaim]
  cases hsettled with
  | running hbefore => exact absurd hend (not_le.mpr hbefore)
  | renewed =>
      have hlocked : outflow host s.token [renewalTransfer host (s.checkpoint claim env.now)] = -s.deposit :=
        renewal_outflow (r := s.checkpoint claim env.now) h.sender
      rw [hlocked]
      omega
  | lapsed =>
      obtain rfl := Option.some.inj hlookup
      simp at hstatus
  | finished _ _ hauto' => exact absurd (hauto.symm.trans hauto') (by simp)

/-- A renewal leaves no residue exactly when the flow of a cycle uses up its deposit and no
fee goes to the contract itself, and streams that only ever renew from such cycles pay out
all that was paid in for them. -/
theorem renewal_residue_iff (h : Reached host c) :
    (∀ (env : Env host) (id : StreamId) (s : Stream) (v w' : World), c.now ≤ env.now → Turn env c.world id v w' →
      v.book.streams.lookup id = some s → s.autoRenew = true →
      s.totalWithdrawn = s.flowRate * ((s.lastWithdrawTime : Int) - s.startTime) →
      Storage.getProtocolFee c.world = 0 ∨ (Storage.getTreasury c.world).isSome → s.endTime ≤ env.now →
      (∃ q, w'.book.streams.lookup id = some q ∧ q.status = .active) →
      ∃ ts, w'.log = v.log ++ ts ∧
        (-outflow host s.token (onAccount id ts) = s.deposit - (s.deposit - s.totalWithdrawn) ↔
          s.deposit = s.flowRate * ((s.endTime : Int) - s.startTime) ∧
          (Storage.getTreasury c.world = some host.contract → Storage.isFeeExempt s.recipient c.world = true ∨
            s.flowRate * ((s.endTime : Int) - s.lastWithdrawTime) * Storage.getProtocolFee c.world < 10000))) ∧
    ∀ (e : Event host) (id : StreamId) (s : Stream) (events : List (Event host)) (c' : Chain) (env : Env host)
      (call : StreamCall), Lifetime c e id s events c' env call →
      PaysOut host s.token id (c.step e).world (c'.step (.call env (.stream call))).world s.deposit ∧
      ∀ env₀ call₀, e = .call env₀ (.stream call₀) → OpeningCall call₀ →
        PaysOut host s.token id c.world (c'.step (.call env (.stream call))).world 0 := by
  have hsolvent := reached_solvent h
  refine ⟨?_, ?_⟩
  · intro env id s v w' hnow hturn hs hauto hcounted hset hend hactive
    obtain ⟨r, claim, single, w₁, out, us, hturned⟩ := hturn.turned (hsolvent.accounts.mono hnow) (reached_senders h)
    obtain rfl := Option.some.inj (hs.symm.trans hturned.stored)
    have hflow := hturned.renewal_flow hsolvent.fees hend hauto hactive
    have hdue := hturned.claim_uncounted hend hcounted
    have hretained : 0 ≤ retainedFee host c.world s claim := retainedFee_nonneg hsolvent.fees hturned.claim_nonneg
    have hdust := hturned.sound.funded
    refine ⟨_, hturned.log, ?_⟩
    rw [hturned.onAccount_eq, hflow, ← hturned.claim_due hend,
      ← retainedFee_eq_zero_iff_self hsolvent.fees hturned.claim_nonneg hset]
    omega
  · intro e id s events c' env call hlife
    refine ⟨hlife.paysOut h, ?_⟩
    rintro env₀ call₀ rfl hopen
    rcases step_cases hlife.may with ⟨hmade, -⟩ | ⟨env', call', made, v, heq, hok, -⟩
    · have hmakes := hlife.makes
      rw [hmade] at hmakes
      simp at hmakes
    · cases heq
      obtain ⟨q, hq, -, hopening⟩ := exec_made hok hlife.makes
      obtain rfl := Option.some.inj (hlife.record.symm.trans hq)
      obtain ⟨hfree, hbalanced⟩ := hopening hopen
      exact (hbalanced.trans (hlife.balanced h)).paysOut (heldFor_none hfree) (heldFor_over hlife.ended)

theorem step_streamCall (c : Chain) (env : Env host) (call : StreamCall) :
    (c.step (.call env (.stream call))).world = (call.exec env c.world).commit c.world := rfl

theorem withdraw_of_exec {recipient : Address} {new : List StreamId}
    (h : (StreamCall.withdraw id recipient).exec env w = .ok new w') : withdraw id recipient env w = .ok () w' := by
  obtain ⟨_, _, h, -, rfl⟩ := bind_ok.mp h
  exact h

namespace Sample

def recurring (amount : I128) : Event site :=
  call [2] 10 (.createStream { terms 0 0 with amount, autoRenew := true })

def recurringStream (amount : I128) : Stream :=
  createdStream site { terms 0 0 with amount, autoRenew := true } 10

def renewing : Event site := call [2, 3] 4010 (.withdraw streamId (party 3))

def cancelling : Event site := call [2] 5010 (.cancelStream streamId (party 2))

def recurs (amount : I128) : Chain := genesis.step (recurring amount)

theorem genesis_reached : Reached site genesis := ⟨genesis, [], genesis_fresh, .nil⟩

theorem recurs_reached (amount : I128) : Reached site (recurs amount) := genesis_reached.next ⟨Nat.zero_le _, trivial⟩

def renewedOnce (amount : I128) : Chain := (recurs amount).step renewing

def closedAfter (amount : I128) : Chain := (renewedOnce amount).step cancelling

end Sample

theorem sample_renewal_residue :
    let s := Sample.recurringStream ⟨100000, by decide⟩
    (∃ ts, (Sample.renewedOnce ⟨100000, by decide⟩).world.log = (Sample.recurs ⟨100000, by decide⟩).world.log ++ ts ∧
      (-outflow Sample.site s.token (onAccount Sample.streamId ts) = s.deposit - (s.deposit - s.totalWithdrawn) ↔
        s.deposit = s.flowRate * ((s.endTime : Int) - s.startTime) ∧
        (Storage.getTreasury (Sample.recurs ⟨100000, by decide⟩).world = some (Sample.party 0) →
          Storage.isFeeExempt s.recipient (Sample.recurs ⟨100000, by decide⟩).world = true ∨
            s.flowRate * ((s.endTime : Int) - s.lastWithdrawTime) *
              Storage.getProtocolFee (Sample.recurs ⟨100000, by decide⟩).world < 10000))) ∧
    PaysOut Sample.site s.token Sample.streamId (Sample.recurs ⟨100000, by decide⟩).world
      (Sample.closedAfter ⟨100000, by decide⟩).world s.deposit ∧
    PaysOut Sample.site s.token Sample.streamId Sample.genesis.world
      (Sample.closedAfter ⟨100000, by decide⟩).world 0 := by
  intro s
  have hopened : Reached Sample.site (Sample.recurs ⟨100000, by decide⟩) := Sample.recurs_reached _
  have hfirst : (Sample.recurs ⟨100000, by decide⟩).world.book.streams.lookup Sample.streamId =
      some (Sample.recurringStream ⟨100000, by decide⟩) := by decide +kernel
  have hsecond : (Sample.renewedOnce ⟨100000, by decide⟩).world.book.streams.lookup Sample.streamId =
      some (Sample.recurringStream ⟨100000, by decide⟩).renewed := by decide +kernel
  have hgone : (Sample.closedAfter ⟨100000, by decide⟩).world.book.streams.lookup Sample.streamId = none := by
    decide +kernel
  have hexec : (StreamCall.withdraw Sample.streamId (Sample.party 3)).exec (Sample.signed [2, 3] 4010)
      (Sample.recurs ⟨100000, by decide⟩).world = .ok [] (Sample.renewedOnce ⟨100000, by decide⟩).world := by
    have hnext : Sample.renewedOnce ⟨100000, by decide⟩ = (Sample.recurs ⟨100000, by decide⟩).step
      (.call (Sample.signed [2, 3] 4010) (.stream (.withdraw Sample.streamId (Sample.party 3)))) := rfl
    rw [hnext, step_streamCall]
    exact Outcome.ok_commit (by decide +kernel) _
  have hok : withdraw Sample.streamId (Sample.party 3) (Sample.signed [2, 3] 4010)
      (Sample.recurs ⟨100000, by decide⟩).world = .ok () (Sample.renewedOnce ⟨100000, by decide⟩).world :=
    withdraw_of_exec hexec
  obtain ⟨hrenewal, -⟩ := renewal_residue_iff hopened
  obtain ⟨-, hlifetime⟩ := renewal_residue_iff Sample.genesis_reached
  have hrenewing : Tended Sample.streamId (Sample.recurs ⟨100000, by decide⟩) Sample.renewing :=
    ⟨⟨by decide, trivial⟩, by decide +kernel, .inl (by decide), _, hfirst, .inl rfl, by decide, by
      rintro _ _ heq
      cases heq
      exact fun _ => by decide⟩
  have hcancelling : Tended Sample.streamId (Sample.renewedOnce ⟨100000, by decide⟩) Sample.cancelling :=
    ⟨⟨by decide, trivial⟩, by decide +kernel, .inl (by decide +kernel), _, hsecond, .inl rfl, by decide, by
      rintro _ _ heq
      cases heq
      exact fun _ => by decide⟩
  have hlast := hlifetime (Sample.recurring ⟨100000, by decide⟩) Sample.streamId
    (Sample.recurringStream ⟨100000, by decide⟩) [Sample.renewing] (Sample.renewedOnce ⟨100000, by decide⟩)
    (Sample.signed [2] 5010) (.cancelStream Sample.streamId (Sample.party 2))
    ⟨⟨by decide, trivial⟩, by decide +kernel, hfirst, Run.snoc .nil hrenewing, hcancelling, .cancelStream _ _,
      fun ⟨_, hq, _⟩ => absurd (hq.symm.trans hgone) (by simp)⟩
  have hopening : Sample.genesis.step (Sample.recurring ⟨100000, by decide⟩) = Sample.recurs ⟨100000, by decide⟩ := rfl
  have hclosing : (Sample.renewedOnce ⟨100000, by decide⟩).step (.call (Sample.signed [2] 5010)
      (.stream (.cancelStream Sample.streamId (Sample.party 2)))) = Sample.closedAfter ⟨100000, by decide⟩ := rfl
  rw [hopening, hclosing] at hlast
  obtain ⟨hpaid, hall⟩ := hlast
  refine ⟨?_, hpaid, ?_⟩
  · exact hrenewal (Sample.signed [2, 3] 4010) Sample.streamId (Sample.recurringStream ⟨100000, by decide⟩) _ _
      (by decide)
      (.withdraw (Sample.party 3) hok) hfirst rfl (by decide) (.inl (by decide)) (by decide) ⟨_, hsecond, rfl⟩
  · exact hall (Sample.signed [2] 10) _ rfl (.createStream _)

/-- 7999 over 4000 seconds flows at 1 a second. The renewal claims 4000 and locks 7999
anew, so 11998 are held for a cycle of 7999, and when it is cancelled 3999 stay behind. -/
theorem renewal_leaves_residue :
    Reached Sample.site (Sample.recurs ⟨7999, by decide⟩) ∧
    Storage.getProtocolFee (Sample.recurs ⟨7999, by decide⟩).world = 0 ∧
    ((Sample.recurs ⟨7999, by decide⟩).world.book.streams.lookup Sample.streamId).map (fun s =>
      (s.status, s.autoRenew, s.deposit, s.totalWithdrawn, s.lastWithdrawTime - s.startTime, s.endTime)) =
      some (.active, true, 7999, 0, 0, 4010) ∧
    ((Sample.renewedOnce ⟨7999, by decide⟩).world.book.streams.lookup Sample.streamId).map (fun s =>
      (s.status, s.deposit, s.totalWithdrawn, s.startTime, s.endTime)) = some (.active, 7999, 0, 4010, 8010) ∧
    (Sample.recurs ⟨7999, by decide⟩).world.balances (Sample.party 9) (Sample.party 0) = 7999 ∧
    (Sample.renewedOnce ⟨7999, by decide⟩).world.balances (Sample.party 9) (Sample.party 0) = 11998 ∧
    (Sample.closedAfter ⟨7999, by decide⟩).world.book.streams.lookup Sample.streamId = none ∧
    (Sample.closedAfter ⟨7999, by decide⟩).world.balances (Sample.party 9) (Sample.party 0) = 3999 :=
  ⟨Sample.recurs_reached ⟨7999, by decide⟩, by decide +kernel,
    by decide +kernel, by decide +kernel, by decide +kernel, by decide +kernel, by decide +kernel, by decide +kernel⟩

end SoroStream
