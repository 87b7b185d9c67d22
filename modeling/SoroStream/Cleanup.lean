import SoroStream.Archiving
import SoroStream.CatchUp

namespace SoroStream

open Lib Lib.Rollback Lib.Rollback.Prog Lib.Runs Contract

variable {host : Host} {env : Env host} {w w' w₁ : World} {c c' : Chain} {id : StreamId} {q r s : Stream} {b : Book}
  {u : Unit} {caller : Address} {now : Nat} {claim : Int} {events : List (Event host)} {e : Event host}
  {out : Option Stream} {us : List Transfer} {looks : Bool}

structure CleanedUp (w w' : World) (id : StreamId) (s : Stream) : Prop where
  record : w'.book.streams = w.book.streams.erase id
  listed : id ∈ Storage.getIdsBySender s.sender w ∧ id ∈ Storage.getIdsByRecipient s.recipient w
  sender : (Storage.getIdsBySender s.sender w').Perm ((Storage.getIdsBySender s.sender w).erase id)
  recipient : (Storage.getIdsByRecipient s.recipient w').Perm ((Storage.getIdsByRecipient s.recipient w).erase id)
  delegate : Storage.getDelegate id w' = none

def Clearable (host : Host) (w : World) (id : StreamId) (s : Stream) : Prop :=
  ∀ (env : Env host) (caller : Address), env.auths caller = true → caller = s.sender ∨ caller = s.recipient →
    ∃ w', archiveStream id caller env w = .ok () w' ∧ CleanedUp w w' id s

def TerminalsClearable (host : Host) (c : Chain) : Prop :=
  ∀ id s, c.world.book.streams.lookup id = some s → s.Terminal → Clearable host c.world id s

theorem archive_cleansUp (hx : Entries w.book) (hs : w.book.streams.lookup id = some s) :
    CleanedUp w (w.withBook ((w.book.close id s).setDelegate id none)) id s := by
  obtain ⟨l, hl, hsenders⟩ := hx.senders.removed hs 0
  obtain ⟨l', hl', hrecipients⟩ := hx.recipients.removed hs 0
  refine ⟨rfl, ⟨hx.senders.entry id s hs, hx.recipients.entry id s hs⟩, ?_, ?_, ?_⟩
  · have hleft : Storage.getIdsBySender s.sender (w.withBook ((w.book.close id s).setDelegate id none)) = l := by
      rw [← hl.toList_eq]
      simp [Storage.getIdsBySender, Book.setDelegate, Book.close, Storage.unindex]
    rwa [hleft]
  · have hleft : Storage.getIdsByRecipient s.recipient (w.withBook ((w.book.close id s).setDelegate id none)) = l' := by
      rw [← hl'.toList_eq]
      simp [Storage.getIdsByRecipient, Book.setDelegate, Book.close, Storage.unindex]
    rwa [hleft]
  · simp [Storage.getDelegate, Book.setDelegate]

theorem clearable_of_paidUp (hw : Accounts now w.book.streams) (hx : Entries w.book)
    (hs : w.book.streams.lookup id = some s) (hpaid : s.PaidUp) : Clearable host w id s := by
  intro env caller hauth hparty
  exact ⟨_, (archiveStream_iff hw).mpr ⟨hauth, s, hs, hparty, hpaid, rfl⟩, archive_cleansUp hx hs⟩

def signedBy (env : Env host) (a : Address) (hcontract : a ≠ host.contract) (htreasury : a ≠ host.treasury) :
    Env host where
  timestamp := env.timestamp
  auths b := decide (b = a)
  accepts := env.accepts
  foreign := env.foreign
  contract_silent := decide_eq_false (Ne.symm hcontract)
  treasury_silent := decide_eq_false (Ne.symm htreasury)
  foreign_keeps := env.foreign_keeps

theorem paidUp_of_clearable (env : Env host) (hreached : Reached host c)
    (hs : c.world.book.streams.lookup id = some s) (h : Clearable host c.world id s) : s.PaidUp := by
  have hoff : s.sender ≠ host.contract ∧ s.sender ≠ host.treasury :=
    reached_signers (p := fun a => a ≠ host.contract ∧ a ≠ host.treasury)
      (fun env a hauth => ⟨signer_ne_contract hauth, signer_ne_treasury hauth⟩) hreached id s hs
  obtain ⟨w', hok, -⟩ := h (signedBy env s.sender hoff.1 hoff.2) s.sender (decide_eq_true rfl) (.inl rfl)
  obtain ⟨-, r, hr, -, hpaid, -⟩ := (archiveStream_iff (reached_accounts hreached)).mp hok
  obtain rfl := Option.some.inj (hs.symm.trans hr)
  exact hpaid

abbrev Cleared (streams : Streams) : Prop := Holding (fun s => s.Terminal → s.PaidUp) streams

theorem live_cleared (h : s.Live) : s.Terminal → s.PaidUp := fun hterm => absurd h hterm.not_live

theorem settled_cleared (hset : Settlement env w₁ now looks r out us) (hactive : r.status = .active)
    (hb : Cleared b.streams)
    (hlapse : looks = true → r.endTime ≤ now → r.autoRenew = true → w₁.balances r.token r.sender < r.deposit →
      ({ r with status := .completed } : Stream).PaidUp) :
    Cleared (b.settle id r out).streams := by
  cases hset with
  | running => exact hb.insert (live_cleared (.inl hactive)) _
  | renewed => exact hb.insert (live_cleared (s := r.renewed) (.inl hactive)) _
  | lapsed hend _ hauto hlooks hfunds => exact hb.insert (fun _ => hlapse hlooks hend hauto hfunds) _
  | finished => exact hb.erase id

theorem withdrawal_cleared {single : Bool} (hb : Cleared w.book.streams)
    (hwd : Withdrawal env w single id s claim w₁ out us)
    (hlapse : single = true → s.endTime ≤ env.now → s.autoRenew = true →
      w₁.balances s.token s.sender < s.deposit →
        ({ s.checkpoint claim env.now with status := .completed } : Stream).PaidUp) :
    Cleared (Withdrawal.result w₁ id s claim env.now out us).book.streams := by
  have hbook : Cleared w₁.book.streams := by
    rw [hwd.paid.book]
    exact hb
  exact settled_cleared hwd.settled hwd.active hbook hlapse

/-- A renewal that fails leaves the record paid up just if nothing was forfeited before. -/
theorem lapsed_paidUp_iff (h : Accounted now s) (hend : s.endTime ≤ now) (hclaim : claimFor true s now = some claim) :
    ({ s.checkpoint claim now with status := .completed } : Stream).PaidUp ↔ s.Unforfeited := by
  have hcliff := h.cliff
  have hstop := h.stopped
  have hflow : claim = s.flowRate * ((s.endTime : Int) - s.lastWithdrawTime) := by
    have hvalue := claimableAt_eq (s := s) hclaim
    rw [if_neg (by omega), flowed, min_eq_right hend] at hvalue
    rw [hvalue, Nat.cast_sub hstop]
  have hpos : 0 ≤ claim := by
    rw [hflow]
    exact Int.mul_nonneg (by have := h.rate; omega) (by omega)
  have hcredit : (if 0 < claim then s.totalWithdrawn + claim else s.totalWithdrawn) = s.totalWithdrawn + claim := by
    split <;> omega
  have hsplit : s.flowRate * ((s.endTime : Int) - s.startTime) =
      s.flowRate * ((s.lastWithdrawTime : Int) - s.startTime) + claim := by
    rw [hflow]
    ring
  simp only [Stream.PaidUp, Stream.scheduled, Stream.checkpoint, Stream.credit, Stream.Unforfeited, hcredit, hsplit]
  omega

/-- A stream that has ended and would renew, but its sender holds too little once the claim
is paid. -/
def CannotRenew (env : Env host) (w : World) (s : Stream) : Prop :=
  s.autoRenew = true ∧ s.endTime ≤ env.now ∧
    ∃ claim ∈ claimableAt s env.now, (w.claimed env s claim).balances s.token s.sender < s.deposit

instance (env : Env host) (w : World) (s : Stream) : Decidable (CannotRenew env w s) :=
  inferInstanceAs (Decidable (_ ∧ _ ∧ ∃ _ ∈ _, _))

/-- A split of a record that is not paid up, unless the successor is written over it; or a
withdrawal whose renewal fails, of a stream that had forfeited something. -/
def StreamCall.Strands (env : Env host) (w : World) : StreamCall → Prop
  | .partialCancelStream id caller cancelAmount =>
      (Contract.partialCancelStream id caller cancelAmount.val env w).value?.isSome = true ∧
      ∃ s ∈ w.book.streams.lookup id, ¬s.PaidUp ∧
        Storage.deriveStreamId host s.sender s.recipient (s.clock env.now) id ≠ id
  | .withdraw id recipient =>
      (Contract.withdraw id recipient env w).value?.isSome = true ∧
      ∃ s ∈ w.book.streams.lookup id, ¬s.Unforfeited ∧ CannotRenew env (w.awake env.now) s
  | _ => False

instance : ∀ (env : Env host) (w : World) (call : StreamCall), Decidable (call.Strands env w)
  | _, _, .partialCancelStream _ _ _ => inferInstanceAs (Decidable (_ ∧ ∃ _ ∈ _, _ ∧ _))
  | _, _, .withdraw _ _ => inferInstanceAs (Decidable (_ ∧ ∃ _ ∈ _, _ ∧ _))
  | _, _, .createStream _ => .isFalse fun h => h
  | _, _, .batchCreateStream _ => .isFalse fun h => h
  | _, _, .batchWithdraw _ _ => .isFalse fun h => h
  | _, _, .cancelStream _ _ => .isFalse fun h => h
  | _, _, .batchCancelStream _ _ => .isFalse fun h => h
  | _, _, .recipientTerminate _ _ => .isFalse fun h => h
  | _, _, .transferRecipient _ _ _ => .isFalse fun h => h
  | _, _, .topUp _ _ _ _ => .isFalse fun h => h
  | _, _, .pauseStream _ _ => .isFalse fun h => h
  | _, _, .resumeStream _ _ => .isFalse fun h => h
  | _, _, .archiveStream _ _ => .isFalse fun h => h
  | _, _, .delegate _ _ _ => .isFalse fun h => h
  | _, _, .revokeDelegate _ _ => .isFalse fun h => h
  | _, _, .updateMetadata _ _ _ => .isFalse fun h => h
  | _, _, .cancelAutoRenew _ _ => .isFalse fun h => h

theorem withdraw_cleared {recipient : Address} (hw : Accounts env.now w.book.streams) (hb : Cleared w.book.streams)
    (hkeeps : ¬(StreamCall.withdraw id recipient).Strands env w)
    (h : Contract.withdraw id recipient env w = .ok u w') : Cleared w'.book.streams := by
  have hrun : (Contract.withdraw id recipient env w).value?.isSome = true := by
    rw [h]
    rfl
  obtain ⟨s, claim, out, us, -, hwd, rfl⟩ := withdraw_claimed h
  refine withdrawal_cleared (w := w.awake env.now) hb hwd fun _ hend hauto hfunds => ?_
  refine (lapsed_paidUp_iff (hw id s hwd.stored).2.toAccounted hend hwd.claimed).mpr ?_
  by_contra hforfeit
  exact hkeeps ⟨hrun, s, hwd.stored, hforfeit, hauto, hend, claim, hwd.claimed, hfunds⟩

theorem batchWithdraw_cleared {recipient : Address} {ids : List StreamId} {claims : List Int}
    (hb : Cleared w.book.streams)
    (h : Contract.batchWithdraw ids recipient env w = .ok claims w') : Cleared w'.book.streams := by
  obtain ⟨-, hauth, hitems⟩ := batchWithdraw_ok h
  refine each_inv (fun v => Cleared v.book.streams) ?_ hb hitems
  intro id _ v claim v' hv hitem
  obtain ⟨s, w₁, out, us, -, hwd, rfl⟩ := batchWithdrawItem_ok hauth hitem
  exact withdrawal_cleared hv hwd fun hsingle => Bool.noConfusion hsingle

theorem handedOver_cleared {recipient : Address} {tau : Nat} (hb : Cleared w.book.streams)
    (h : HandOver env w id s claim w₁ recipient) :
    Cleared (HandOver.book w₁.book id s claim tau recipient).streams := by
  have hbook : Cleared w₁.book.streams := by
    rw [h.paid.book]
    exact hb
  exact hbook.insert (live_cleared (h.still_live tau)) _

/-- A split that leaves nothing behind: the old record is paid up, or it is overwritten. -/
theorem partialCancelStream_cleared {cancelAmount : I128} {newId : StreamId}
    (hw : Accounts env.now w.book.streams) (hb : Cleared w.book.streams)
    (hkeeps : ¬(StreamCall.partialCancelStream id caller cancelAmount).Strands env w)
    (h : Contract.partialCancelStream id caller cancelAmount.val env w = .ok newId w') : Cleared w'.book.streams := by
  have hrun : (Contract.partialCancelStream id caller cancelAmount.val env w).value?.isSome = true := by
    rw [h]
    rfl
  obtain ⟨-, s, earned, streamed, -, -, hsplit, rfl⟩ := partialCancelStream_ok h
  obtain ⟨rfl, -⟩ := hw id s hsplit.stored
  have hsuccessor : (splitSuccessor host s.id s (s.clock env.now)
      (splitDeposit s streamed cancelAmount.val)).Terminal → (splitSuccessor host s.id s (s.clock env.now)
        (splitDeposit s streamed cancelAmount.val)).PaidUp := live_cleared (.inl rfl)
  by_cases hpaid : s.PaidUp
  · have hcancelled : Cleared (w.book.streams.insert s.id { s with status := .cancelled }) :=
      hb.insert (a := { s with status := .cancelled }) (fun _ => hpaid) s.id
    exact hcancelled.insert hsuccessor _
  · have hsame : Storage.deriveStreamId host s.sender s.recipient (s.clock env.now) s.id = s.id := by
      by_contra hne
      exact hkeeps ⟨hrun, s, hsplit.stored, hpaid, hne⟩
    refine Holding.overwrite ?_ hsuccessor
    intro j hj r hr
    have hother : j ≠ s.id := fun heq => hj (heq.trans hsame.symm)
    rw [Book.save_streams, Finmap.lookup_insert_of_ne _ hother] at hr
    exact hb j r hr

theorem streamCall_cleared {call : StreamCall} {ids : List StreamId} (hw : Accounts env.now w.book.streams)
    (hb : Cleared w.book.streams) (hkeeps : ¬call.Strands env w) (h : call.exec env w = .ok ids w') :
    Cleared w'.book.streams := by
  cases call with
  | createStream a =>
      obtain ⟨newId, _, h, rfl, rfl⟩ := bind_ok.mp h
      obtain ⟨-, rfl, fees, hc, rfl⟩ := createStream_ok h
      exact hb.insert (live_cleared (s := createdStream host a env.now) (.inl rfl)) _
  | batchCreateStream a =>
      obtain ⟨-, _, hitems⟩ := batchCreateStream_ok h
      refine each_inv (fun v => Cleared v.book.streams) ?_ hb hitems
      intro entry _ v newId v' hv hitem
      obtain ⟨rfl, -, -, rfl⟩ := batchCreateItem_ok hitem
      exact hv.insert (live_cleared (s := batchedStream a env.now entry) (.inl rfl)) _
  | withdraw id recipient =>
      obtain ⟨_, _, h, -, rfl⟩ := bind_ok.mp h
      exact withdraw_cleared hw hb hkeeps h
  | batchWithdraw ids recipient =>
      obtain ⟨_, _, h, -, rfl⟩ := bind_ok.mp h
      exact batchWithdraw_cleared hb h
  | cancelStream id caller =>
      obtain ⟨_, _, h, -, rfl⟩ := bind_ok.mp h
      obtain ⟨-, s, amount, -, -, -, -, -, rfl⟩ := cancelStream_ok.mp h
      exact hb.erase id
  | batchCancelStream ids sender =>
      obtain ⟨_, _, h, -, rfl⟩ := bind_ok.mp h
      refine each_inv (fun v => Cleared v.book.streams) ?_ hb (batchCancelStream_ok h).2
      intro id _ v result v' hv hitem
      rcases batchCancelItem_cases hitem with rfl | ⟨s, amount, -, -, -, -, -, rfl⟩
      · exact hv
      · exact hv.erase id
  | recipientTerminate id recipient =>
      obtain ⟨_, _, h, -, rfl⟩ := bind_ok.mp h
      obtain ⟨-, -, s, amount, -, -, -, -, -, -, rfl⟩ := recipientTerminate_ok.mp h
      exact hb.erase id
  | transferRecipient id current recipient =>
      obtain ⟨_, _, h, -, rfl⟩ := bind_ok.mp h
      obtain ⟨-, s, claim, w₁, -, hh, rfl⟩ := transferRecipient_ok h
      exact handedOver_cleared (w := w.awake env.now) hb hh
  | partialCancelStream id caller cancelAmount =>
      obtain ⟨newId, _, h, -, rfl⟩ := bind_ok.mp h
      exact partialCancelStream_cleared hw hb hkeeps h
  | topUp id caller token amount =>
      obtain ⟨_, _, h, -, rfl⟩ := bind_ok.mp h
      obtain ⟨-, s, -, ht, rfl⟩ := topUp_ok h
      exact hb.insert (live_cleared (s := s.toppedUp (topUpAmount s amount.val)) ht.live) _
  | pauseStream id sender =>
      obtain ⟨_, _, h, -, rfl⟩ := bind_ok.mp h
      obtain ⟨-, s, hs, -, -, -, rfl⟩ := pauseStream_ok h
      exact hb.insert (live_cleared (s := { s with status := .paused, lastPauseTime := env.now }) (.inr rfl)) _
  | resumeStream id sender =>
      obtain ⟨_, _, h, -, rfl⟩ := bind_ok.mp h
      obtain ⟨-, s, hs, -, -, -, rfl⟩ := resumeStream_ok h
      exact hb.insert (live_cleared (s := resumed s (env.now - s.lastPauseTime)) (.inl rfl)) _
  | archiveStream id caller =>
      obtain ⟨_, _, h, -, rfl⟩ := bind_ok.mp h
      obtain ⟨s, -, rfl⟩ := archiveStream_ok h
      exact hb.erase id
  | delegate sender id operator =>
      obtain ⟨_, _, h, -, rfl⟩ := bind_ok.mp h
      obtain ⟨r, -, -, -, rfl⟩ := delegate_ok h
      exact hb
  | revokeDelegate sender id =>
      obtain ⟨_, _, h, -, rfl⟩ := bind_ok.mp h
      obtain ⟨r, -, -, -, rfl⟩ := revokeDelegate_ok h
      exact hb
  | updateMetadata sender id metadata =>
      obtain ⟨_, _, h, -, rfl⟩ := bind_ok.mp h
      obtain ⟨r, hr, -, -, -, rfl⟩ := updateMetadata_ok h
      exact hb.insert (a := { r with metadata }) (hb id r hr) _
  | cancelAutoRenew sender id =>
      obtain ⟨_, _, h, -, rfl⟩ := bind_ok.mp h
      obtain ⟨r, hr, -, -, rfl⟩ := cancelAutoRenew_ok h
      exact hb.insert (a := { r with autoRenew := false }) (hb id r hr) _

theorem strands_leaves {call : StreamCall} {ids : List StreamId} (hw : Accounts env.now w.book.streams)
    (hstrands : call.Strands env w) (h : call.exec env w = .ok ids w') :
    ∃ id s, w'.book.streams.lookup id = some s ∧ s.Terminal ∧ ¬s.PaidUp := by
  cases call with
  | partialCancelStream id caller cancelAmount =>
      obtain ⟨-, r, hr, hunpaid, hne⟩ := hstrands
      obtain ⟨newId, _, h, -, rfl⟩ := bind_ok.mp h
      obtain ⟨-, s, earned, streamed, -, -, hsplit, rfl⟩ := partialCancelStream_ok h
      obtain rfl := Option.some.inj (hsplit.stored.symm.trans hr)
      obtain ⟨rfl, -⟩ := hw id s hsplit.stored
      refine ⟨s.id, { s with status := .cancelled }, ?_, .inl rfl, hunpaid⟩
      exact (Finmap.lookup_insert_of_ne _ (Ne.symm hne)).trans (Finmap.lookup_insert _)
  | withdraw id recipient =>
      obtain ⟨-, r, hr, hforfeit, hauto, hend, amount, hamount, hfunds⟩ := hstrands
      obtain ⟨_, _, h, -, rfl⟩ := bind_ok.mp h
      obtain ⟨s, claim, out, us, -, hwd, rfl⟩ := withdraw_claimed h
      obtain rfl := Option.some.inj (hwd.stored.symm.trans hr)
      obtain rfl := Option.some.inj (hwd.claimed.symm.trans hamount)
      obtain ⟨rfl, hsound⟩ := hw id s hwd.stored
      have hset := hwd.settled
      cases hset with
      | running hlate => exact absurd hend (not_le.mpr hlate)
      | renewed _ _ _ hholds => exact absurd (hholds rfl) (not_le.mpr hfunds)
      | lapsed =>
          refine ⟨s.id, _, hwd.lookup rfl, .inr rfl, ?_⟩
          exact fun hpaid => hforfeit ((lapsed_paidUp_iff hsound.toAccounted hend hwd.claimed).mp hpaid)
      | finished _ _ hnever => exact Bool.noConfusion (hnever.symm.trans hauto)
  | _ => exact hstrands.elim

def Chain.Strands (c : Chain) : Event host → Prop
  | .call env (.stream call) => call.Strands env c.world
  | _ => False

instance : ∀ (c : Chain) (e : Event host), Decidable (c.Strands e)
  | c, .call env (.stream call) => inferInstanceAs (Decidable (call.Strands env c.world))
  | _, .call _ (.config _) => .isFalse fun h => h
  | _, .call _ (.view _) => .isFalse fun h => h
  | _, .treasury _ _ => .isFalse fun h => h
  | _, .tokens _ _ => .isFalse fun h => h

theorem strands_runs {call : StreamCall} (hstrands : call.Strands env w) : ∃ ids w', call.exec env w = .ok ids w' := by
  cases call with
  | partialCancelStream id caller cancelAmount =>
      obtain ⟨newId, hvalue⟩ := Option.isSome_iff_exists.mp hstrands.1
      obtain ⟨w', hrun⟩ := Outcome.value?_eq_some.mp hvalue
      exact ⟨[newId], w', bind_ok.mpr ⟨newId, w', hrun, rfl⟩⟩
  | withdraw id recipient =>
      obtain ⟨u, hvalue⟩ := Option.isSome_iff_exists.mp hstrands.1
      obtain ⟨w', hrun⟩ := Outcome.value?_eq_some.mp hvalue
      exact ⟨[], w', bind_ok.mpr ⟨u, w', hrun, rfl⟩⟩
  | _ => exact hstrands.elim

theorem step_cleared (hreached : Reached host c) (hmay : May c e) (hb : Cleared c.world.book.streams)
    (hkeeps : ¬c.Strands e) : Cleared (c.step e).world.book.streams := by
  rcases step_cases hmay with ⟨-, haside⟩ | ⟨env, call, _, _, rfl, hok, -, -, -, -⟩
  · rwa [haside.book]
  · exact streamCall_cleared ((reached_accounts hreached).mono hmay.1) hb hkeeps hok

theorem strands_breaks (hreached : Reached host c) (hmay : May c e) (hstrands : c.Strands e) :
    ¬TerminalsClearable host (c.step e) := by
  cases e with
  | treasury | tokens => exact hstrands.elim
  | call env call =>
      cases call with
      | config | view => exact hstrands.elim
      | stream call =>
          obtain ⟨ids, w', hok⟩ := strands_runs hstrands
          have hstep : (c.step (.call env (.stream call))).world = w' := by
            simp only [Chain.step, Call.exec, hok, Outcome.commit_ok]
          obtain ⟨id, s, hs, hterm, hunpaid⟩ :=
            strands_leaves ((reached_accounts hreached).mono hmay.1) hstrands hok
          rw [← hstep] at hs
          exact fun hall => hunpaid (paidUp_of_clearable env (hreached.next hmay) hs (hall id s hs hterm))

/-- In a run from a new contract every record that is done with can be archived by its two
participants at every moment, exactly when no step of the run leaves one behind unpaid. -/
theorem terminals_clearable_iff (hfresh : Fresh host c) (hrun : SystemRun host c events c') :
    (∀ es, es <+: events → TerminalsClearable host (c.after es)) ↔
      Throughout Chain.step (fun c e => ¬Chain.Strands c e) c events := by
  refine hrun.always_iff (fun c => Reached host c ∧ Cleared c.world.book.streams) ?_ ?_ ?_ ?_
  · refine ⟨⟨c, [], hfresh, .nil⟩, ?_⟩
    rw [hfresh.book]
    exact .empty
  · rintro c e ⟨hreached, hb⟩ hmay hkeeps
    exact ⟨hreached.next hmay, step_cleared hreached hmay hb hkeeps⟩
  · rintro c ⟨hreached, hb⟩ id s hs hterm
    exact clearable_of_paidUp (reached_accounts hreached) (reached_entries hreached) hs (hb id s hs hterm)
  · rintro c e ⟨hreached, -⟩ hmay hbad
    exact strands_breaks hreached hmay (not_not.mp hbad)

namespace Sample

/-- Party 2 locks more than it has left, so that the stream is not renewed at its end. -/
def lapsing : List (Event site) :=
  [call [2] 10 (.createStream { terms 0 0 with amount := ⟨600000, by decide⟩, autoRenew := true }),
    call [3] 2010 (.withdraw streamId (party 3)), call [3] 5000 (.withdraw streamId (party 3))]

end Sample

theorem sample_terminals_clearable : TerminalsClearable Sample.site (Sample.genesis.after Sample.lapsing) :=
  (terminals_clearable_iff Sample.genesis_fresh (run_of_inOrder (by decide))).mpr (by decide +kernel) Sample.lapsing
    List.prefix_rfl

example : ((Sample.genesis.after Sample.lapsing).world.book.streams.lookup Sample.streamId).map Stream.status =
    some .completed := by decide +kernel

theorem split_strands_record :
    Reached Sample.site Sample.halved ∧
    (Sample.halved.world.book.streams.lookup Sample.streamId).map (fun s => (s.status, s.sender, s.totalWithdrawn)) =
      some (.cancelled, Sample.party 2, 0) ∧
    (archiveStream Sample.streamId (Sample.party 2) (Sample.signed [2] 5000) Sample.halved.world).value? = none ∧
    ¬∀ c : Chain, Reached Sample.site c → TerminalsClearable Sample.site c := by
  have horder : inOrder Sample.genesis.now [Sample.opening 0 0, Sample.splitting] = true := by decide
  have hreached : Reached Sample.site Sample.halved := reached_after Sample.genesis_fresh horder
  have hrefused : (archiveStream Sample.streamId (Sample.party 2) (Sample.signed [2] 5000)
      Sample.halved.world).value? = none := by decide +kernel
  refine ⟨hreached, by decide +kernel, hrefused, ?_⟩
  intro hall
  have hstored : Sample.halved.world.book.streams.lookup Sample.streamId =
      some { createdStream Sample.site (Sample.terms 0 0) 10 with status := .cancelled } := by decide +kernel
  obtain ⟨w', hok, -⟩ := hall Sample.halved hreached _ _ hstored (.inl rfl) (Sample.signed [2] 5000) (Sample.party 2)
    (by decide) (.inl rfl)
  rw [hok] at hrefused
  cases hrefused

end SoroStream
