import SoroStream.Opening
import SoroStream.System

namespace SoroStream

open Lib Lib.Rollback Lib.Rollback.Prog Lib.Runs Contract

variable {host : Host} {env : Env host} {w w' : World}

section

variable {u : Unit} {id : StreamId} {s : Stream}

def topUpAmount (s : Stream) (amount : Int) : Int := amount - amount.tmod s.flowRate

def topUpTransfer (host : Host) (s : Stream) (caller : Address) (amount : Int) : Transfer :=
  ⟨s.token, caller, host.contract, amount, .topUp s.id⟩

def Stream.toppedUp (s : Stream) (amount : Int) : Stream :=
  { s with
    endTime := s.endTime + (amount.tdiv s.flowRate).toNat
    deposit := s.deposit + amount }

structure TopUp (env : Env host) (w : World) (id : StreamId) (s : Stream) (caller : Address)
    (amount : Int) : Prop where
  stored : w.book.streams.lookup id = some s
  signed : env.auths caller = true
  live : s.Live
  rate : s.flowRate ≠ 0
  wanted : 0 < topUpAmount s amount
  payable : Payable env w (topUpTransfer host s caller (topUpAmount s amount))
  forward : 0 ≤ (topUpAmount s amount).tdiv s.flowRate
  fits : s.endTime + ((topUpAmount s amount).tdiv s.flowRate).toNat ≤ u64Max
  deposit : s.deposit + topUpAmount s amount ≤ i128Max

theorem remI128_ok {a b q : Int} : remI128 a b env w = .ok q w' ↔ b ≠ 0 ∧ a.tmod b = q ∧ w = w' := by
  simp only [remI128, bind_ok, haltIf_ok, pure_ok, and_assoc, exists_and_left, exists_eq_left', exists_const, ne_eq]

theorem topUp_ok {caller token : Address} {amount : Int} (h : topUp id caller token amount env w = .ok u w') :
    w.pause.pausedAt env.now = false ∧ ∃ s, (s.sender = caller ∨ w.book.delegates id = some caller) ∧
      TopUp env (w.awake env.now) id s caller amount ∧
      ((w.awake env.now).pay [topUpTransfer host s caller (topUpAmount s amount)]).withBook
        (w.book.save (s.toppedUp (topUpAmount s amount))) = w' := by
  simp only [topUp, ask, bind_ok, requireRunning_ok, requireAuth_ok, read_ok, okOr_ok, failIf_ok, not_not, not_or,
    not_le, not_lt, requireSenderOrDelegate_ok, remI128_ok, divI128_ok, checkedAddU64, Checked.addNat_eq_some,
    checkedAddI128, Checked.inRange_eq_some, transfer_ok, saveStream_ok, and_assoc, exists_and_left, exists_eq_left',
    exists_const] at h
  obtain ⟨hrun, hauth, s, hs, hcaller, -, hlive, -, hrate, hwant, hpay, -, hforward, -, hfits, -, hdeposit, rfl⟩ := h
  exact ⟨hrun, s, hcaller, ⟨hs, hauth, hlive, hrate, hwant, hpay, hforward, hfits, hdeposit⟩, rfl⟩

theorem loadForSender_ok {sender : Address} :
    loadForSender id sender env w = .ok s w' ↔
      (w.book.streams.lookup id = some s ∧ s.sender = sender ∧ env.auths s.sender = true) ∧ w = w' := by
  simp only [loadForSender, ask, bind_ok, requireAuth_ok, read_ok, okOr_ok, failIf_ok, pure_ok, not_not, and_assoc,
    exists_and_left, exists_eq_left', exists_const]
  constructor
  · rintro ⟨hauth, s, hs, rfl, rfl, rfl⟩
    exact ⟨hs, rfl, hauth, rfl⟩
  · rintro ⟨hs, rfl, hauth, rfl⟩
    exact ⟨hauth, s, hs, rfl, rfl, rfl⟩

theorem delegate_ok {sender operator : Address} (h : delegate sender id operator env w = .ok u w') :
    ∃ s, w.book.streams.lookup id = some s ∧ s.sender = sender ∧ env.auths s.sender = true ∧
      w.withBook (w.book.setDelegate id (some operator)) = w' := by
  simp only [delegate, bind_ok, loadForSender_ok, Storage.setDelegate, setBook, update_ok, and_assoc,
    exists_and_left, exists_eq_left'] at h
  exact h

theorem revokeDelegate_ok {sender : Address} (h : revokeDelegate sender id env w = .ok u w') :
    ∃ s, w.book.streams.lookup id = some s ∧ s.sender = sender ∧ env.auths s.sender = true ∧
      w.withBook (w.book.setDelegate id none) = w' := by
  simp only [revokeDelegate, bind_ok, loadForSender_ok, Storage.removeDelegate, setBook, update_ok, and_assoc,
    exists_and_left, exists_eq_left'] at h
  exact h

theorem updateMetadata_ok {sender : Address} {metadata : List UInt8}
    (h : updateMetadata sender id metadata env w = .ok u w') :
    ∃ s, w.book.streams.lookup id = some s ∧ s.sender = sender ∧ env.auths s.sender = true ∧
      metadata.length ≤ 64 ∧ w.withBook (w.book.save { s with metadata }) = w' := by
  simpa only [updateMetadata, bind_ok, loadForSender_ok, failIf_ok, not_lt, saveStream_ok, and_assoc,
    exists_and_left, exists_eq_left', exists_const] using h

theorem cancelAutoRenew_ok {sender : Address} (h : cancelAutoRenew sender id env w = .ok u w') :
    ∃ s, w.book.streams.lookup id = some s ∧ s.sender = sender ∧ env.auths s.sender = true ∧
      w.withBook (w.book.save { s with autoRenew := false }) = w' := by
  simpa only [cancelAutoRenew, bind_ok, loadForSender_ok, saveStream_ok, and_assoc, exists_and_left, exists_eq_left',
    exists_const] using h

theorem pauseStream_ok {sender : Address} (h : pauseStream id sender env w = .ok u w') :
    w.pause.pausedAt env.now = false ∧ ∃ s, w.book.streams.lookup id = some s ∧ s.sender = sender ∧
      env.auths s.sender = true ∧ s.status = .active ∧
      (w.awake env.now).withBook (w.book.save { s with status := .paused, lastPauseTime := env.now }) = w' := by
  simp only [pauseStream, timestamp, bind_ok, requireRunning_ok, loadForSender_ok, failIf_ok, not_not, read_ok,
    saveStream_ok, and_assoc, exists_and_left, exists_eq_left', exists_const] at h
  exact h

theorem resumeStream_ok {sender : Address} (h : resumeStream id sender env w = .ok u w') :
    w.pause.pausedAt env.now = false ∧ ∃ s, w.book.streams.lookup id = some s ∧ s.sender = sender ∧
      env.auths s.sender = true ∧ s.status = .paused ∧
      (w.awake env.now).withBook (w.book.save (resumed s (env.now - s.lastPauseTime))) = w' := by
  simp only [resumeStream, timestamp, bind_ok, requireRunning_ok, loadForSender_ok, failIf_ok, not_not, read_ok,
    saveStream_ok, and_assoc, exists_and_left, exists_eq_left', exists_const] at h
  exact h

end

/-- One change of the book: the records it makes, the book after it and the
transfers that go with it. -/
inductive Action (env : Env host) (w : World) : List Stream → Book → List Transfer → Prop
  | nonceMarked (sender) (nonce) : Action env w [] (w.book.markNonce sender nonce) []
  | batchCounted (sender) (n) : Action env w [] (w.book.countBatch sender n) []
  | opened (s) (duration) (fees) (h : Opening env s duration) (hfree : w.book.streams.lookup s.id = none)
      (hroom : w.book.RoomFor s)
      (hfees : ∀ t ∈ fees, t.payer = s.sender ∧ 0 ≤ t.amount ∧ t.cause = .creationFee s.id) :
      Action env w [s] (w.book.add s) (fees ++ [lockTransfer host s])
  | withdrawn (single) (id) (s) (claim) (w₁) (out) (us) (h : Withdrawal env w single id s claim w₁ out us) :
      Action env w [] (w.book.settle id (s.checkpoint claim env.now) out) (claimedTransfers host w s claim ++ us)
  | handedOver (id) (s) (claim) (w₁) (recipient) (h : HandOver env w id s claim w₁ recipient) :
      Action env w [] (HandOver.book w.book id s claim (s.clock env.now) recipient)
        (claimedTransfers host w s claim)
  | closed (id) (s) (t) (amount) (hs : w.book.streams.lookup id = some s) (hlive : s.Live)
      (hamount : earnedAt s t = some amount ∨ claimableAt s t = some amount) (hcov : Covered env w s amount) :
      Action env w [] (w.book.close id s) (closingTransfers host s amount)
  | split (id) (s) (cancelAmount) (earned) (streamed) (h : Split env w id s cancelAmount earned streamed) :
      Action env w [splitSuccessor host id s (s.clock env.now) (splitDeposit s streamed cancelAmount)]
        (splitBook host w.book id s (s.clock env.now) (splitDeposit s streamed cancelAmount))
        (splitTransfers host s earned cancelAmount)
  | toppedUp (id) (s) (caller) (amount) (h : TopUp env w id s caller amount) :
      Action env w [] (w.book.save (s.toppedUp (topUpAmount s amount)))
        [topUpTransfer host s caller (topUpAmount s amount)]
  | paused (id) (s) (hs : w.book.streams.lookup id = some s) (hauth : env.auths s.sender = true)
      (hactive : s.status = .active) :
      Action env w [] (w.book.save { s with status := .paused, lastPauseTime := env.now }) []
  | resumed (id) (s) (hs : w.book.streams.lookup id = some s) (hauth : env.auths s.sender = true)
      (hpaused : s.status = .paused) :
      Action env w [] (w.book.save (resumed s (env.now - s.lastPauseTime))) []
  | amended (id) (s) (metadata) (autoRenew) (hs : w.book.streams.lookup id = some s)
      (hauth : env.auths s.sender = true) (hauto : autoRenew = true → s.autoRenew = true) :
      Action env w [] (w.book.save { s with metadata, autoRenew }) []
  | delegated (id) (s) (operator) (hs : w.book.streams.lookup id = some s)
      (hauth : env.auths s.sender = true) : Action env w [] (w.book.setDelegate id operator) []
  | archived (id) (s) (h : Archival env w id s) :
      Action env w [] ((w.book.close id s).setDelegate id none) []

def Acted (env : Env host) (made : List Stream) (w w' : World) : Prop :=
  ∃ b ts w₁, Action env w made b ts ∧ Moved host ts w w₁ ∧ w₁.withBook b = w'

variable {id : StreamId} {s : Stream} {made : List Stream}

abbrev Acts (env : Env host) : List Stream → World → World → Prop := Emits (Acted env)

theorem Action.acted {b : Book} {ts : List Transfer} (h : Action env w made b ts) :
    Acted env made w ((w.pay ts).withBook b) :=
  ⟨b, ts, _, h, Moved.pay w ts, rfl⟩

theorem Action.silent {b : Book} (h : Action env w made b []) : Acted env made w (w.withBook b) := by
  simpa only [pay_nil] using h.acted

theorem withdrawal_acted {single : Bool} {claim : Int} {w₁ : World} {out : Option Stream}
    {us : List Transfer} (h : Withdrawal env w single id s claim w₁ out us) :
    Acted env [] w (Withdrawal.result w₁ id s claim env.now out us) := by
  refine ⟨_, _, _, .withdrawn single id s claim w₁ out us h, h.paid.trans (Moved.pay w₁ us), ?_⟩
  simp only [Withdrawal.result, h.paid.book]

theorem closed_acted {t : Nat} {amount : Int} (hs : w.book.streams.lookup id = some s) (hlive : s.Live)
    (hamount : earnedAt s t = some amount ∨ claimableAt s t = some amount) (hcov : Covered env w s amount) :
    Acted env [] w (closed host w id s amount) :=
  (Action.closed id s t amount hs hlive hamount hcov).acted

theorem batchWithdraw_acts {ids : List StreamId} {recipient : Address} {claims : List Int}
    (h : batchWithdraw ids recipient env w = .ok claims w') : Acts env [] (w.awake env.now) w' := by
  obtain ⟨-, hauth, hitems⟩ := batchWithdraw_ok h
  refine each_rel (Acts env []) Emits.refl Emits.trans ?_ hitems
  intro id _ w claim w' h
  obtain ⟨s, w₁, out, us, -, hw, rfl⟩ := batchWithdrawItem_ok hauth h
  exact .single (withdrawal_acted hw)

theorem batchCancelStream_acts {ids : List StreamId} {sender : Address}
    {results : List (Except StreamError Unit)} (h : batchCancelStream ids sender env w = .ok results w') :
    Acts env [] w w' := by
  refine each_rel (Acts env []) Emits.refl Emits.trans ?_ (batchCancelStream_ok h).2
  intro id _ w result w' h
  rcases batchCancelItem_cases h with rfl | ⟨s, amount, hs, -, hlive, hearned, hcov, rfl⟩
  · exact .refl _
  · exact .single (closed_acted hs hlive (.inl hearned) hcov)

theorem createStream_acts {a : CreateArgs} {newId : StreamId} (h : createStream a env w = .ok newId w') :
    newId = (createdStream host a env.now).id ∧
      Acts env [createdStream host a env.now] (w.awake env.now) w' := by
  obtain ⟨-, rfl, fees, hc, rfl⟩ := createStream_ok h
  let w₁ := (w.awake env.now).withBook (w.book.markNonce a.sender a.nonce.val)
  have hmark : Acted env [] (w.awake env.now) w₁ := (Action.nonceMarked a.sender a.nonce.val).silent
  have hopen : Action env w₁ _ _ _ :=
    .opened _ _ fees hc.opening hc.free hc.room (creationFees_payer hc.fees_eq)
  exact ⟨rfl, .tail (.single hmark) hopen.acted⟩

theorem batchItems_acts {a : BatchArgs} {entries : List (BatchItem × StreamId)} {ids : List StreamId}
    (hauth : env.auths a.sender = true) (hlong : 0 < a.durationSeconds.val)
    (hfits : env.now + a.durationSeconds.val ≤ u64Max) (hdistinct : (entries.map Prod.snd).Nodup)
    (hfree : ∀ e ∈ entries, w.book.streams.lookup e.2 = none)
    (hitems : ∀ e ∈ entries, Affordable e.1 a.durationSeconds.val)
    (h : each (batchCreateItem a env.now (env.now + a.durationSeconds.val)) entries env w = .ok ids w') :
    ids = entries.map Prod.snd ∧ Acts env (entries.map (batchedStream a env.now)) w w' := by
  induction entries generalizing w ids with
  | nil =>
      obtain ⟨rfl, rfl⟩ := each_nil.mp h
      exact ⟨rfl, .refl w⟩
  | cons entry entries ih =>
      obtain ⟨newId, w₁, rest, hitem, hrest, rfl⟩ := each_cons.mp h
      obtain ⟨rfl, -, hroom, rfl⟩ := batchCreateItem_ok hitem
      obtain ⟨hnew, hdistinct⟩ := List.nodup_cons.mp hdistinct
      have hopen := batchedStream_opening hauth (hitems entry (by simp)) hlong hfits
      have hact := (Action.opened (w := w) _ _ [] hopen (hfree entry (by simp)) hroom (by simp)).acted
      have hstill : ∀ e ∈ entries,
          (w.book.add (batchedStream a env.now entry)).streams.lookup e.2 = none := by
        intro e he
        have hne : e.2 ≠ entry.2 := fun heq => hnew (heq ▸ List.mem_map_of_mem he)
        exact (Finmap.lookup_insert_of_ne _ hne).trans (hfree e (by simp [he]))
      obtain ⟨rfl, hacts⟩ := ih hdistinct hstill (fun e he => hitems e (by simp [he])) hrest
      exact ⟨rfl, .head hact hacts⟩

theorem batchCreateStream_acts {a : BatchArgs} {ids : List StreamId}
    (h : batchCreateStream a env w = .ok ids w') :
    ids = (batchEntries host a env.now).map Prod.snd ∧ ids.Nodup ∧
      Acts env ((batchEntries host a env.now).map (batchedStream a env.now)) (w.awake env.now) w' := by
  obtain ⟨-, hb, hitems⟩ := batchCreateStream_ok h
  let w₁ := (w.awake env.now).withBook (w.book.countBatch a.sender (a.nonce.val + 1))
  have hcount : Acted env [] (w.awake env.now) w₁ := (Action.batchCounted a.sender (a.nonce.val + 1)).silent
  have hfree : ∀ e ∈ batchEntries host a env.now, w₁.book.streams.lookup e.2 = none := hb.free
  obtain ⟨rfl, hacts⟩ := batchItems_acts hb.signed hb.long hb.fits hb.distinct hfree hb.affordable hitems
  exact ⟨rfl, hb.distinct, .head hcount hacts⟩

/-- One action that makes no record, at once or after a pause that ran out was cleared. -/
theorem acts_of_acted (h : Acted env [] w w' ∨ Acted env [] (w.awake env.now) w') :
    ∃ made, made.map Stream.id = [] ∧ ([] : List StreamId).Nodup ∧
      (Acts env made w w' ∨ Acts env made (w.awake env.now) w') :=
  ⟨[], rfl, List.nodup_nil, h.imp .single .single⟩

/-- A successful stream call is a sequence of actions, perhaps after a pause that
ran out was cleared, and returns the IDs of the records they make. -/
theorem streamCall_acts {c : StreamCall} {ids : List StreamId} (h : c.exec env w = .ok ids w') :
    ∃ made, made.map Stream.id = ids ∧ ids.Nodup ∧ (Acts env made w w' ∨ Acts env made (w.awake env.now) w') := by
  cases c with
  | createStream a =>
      obtain ⟨newId, w₁, h, rfl, rfl⟩ := bind_ok.mp h
      obtain ⟨rfl, hacts⟩ := createStream_acts h
      exact ⟨_, rfl, List.nodup_singleton _, .inr hacts⟩
  | batchCreateStream a =>
      obtain ⟨rfl, hnodup, hacts⟩ := batchCreateStream_acts h
      exact ⟨_, by rw [List.map_map]; rfl, hnodup, .inr hacts⟩
  | partialCancelStream id caller cancelAmount =>
      obtain ⟨newId, w₁, h, rfl, rfl⟩ := bind_ok.mp h
      obtain ⟨-, s, earned, streamed, -, rfl, hsplit, rfl⟩ := partialCancelStream_ok h
      exact ⟨_, rfl, List.nodup_singleton _, .inl (.single (Action.split id s _ earned streamed hsplit).acted)⟩
  | withdraw id recipient =>
      obtain ⟨_, w₁, h, rfl, rfl⟩ := bind_ok.mp h
      obtain ⟨-, s, claim, w₁, out, us, -, hw, rfl⟩ := withdraw_ok h
      exact acts_of_acted (.inr (withdrawal_acted hw))
  | batchWithdraw ids recipient =>
      obtain ⟨_, w₁, h, rfl, rfl⟩ := bind_ok.mp h
      exact ⟨[], rfl, List.nodup_nil, .inr (batchWithdraw_acts h)⟩
  | cancelStream id caller =>
      obtain ⟨_, w₁, h, rfl, rfl⟩ := bind_ok.mp h
      obtain ⟨-, s, amount, hs, -, hlive, hearned, hcov, rfl⟩ := cancelStream_ok.mp h
      exact acts_of_acted (.inl (closed_acted hs hlive (.inl hearned) hcov))
  | batchCancelStream ids sender =>
      obtain ⟨_, w₁, h, rfl, rfl⟩ := bind_ok.mp h
      exact ⟨[], rfl, List.nodup_nil, .inl (batchCancelStream_acts h)⟩
  | recipientTerminate id recipient =>
      obtain ⟨_, w₁, h, rfl, rfl⟩ := bind_ok.mp h
      obtain ⟨-, -, s, amount, hs, -, -, hlive, hclaim, hcov, rfl⟩ := recipientTerminate_ok.mp h
      exact acts_of_acted (.inr (closed_acted hs hlive (.inr hclaim) hcov))
  | transferRecipient id current recipient =>
      obtain ⟨_, w₁, h, rfl, rfl⟩ := bind_ok.mp h
      obtain ⟨-, s, claim, w₂, -, hh, rfl⟩ := transferRecipient_ok h
      refine acts_of_acted (.inr ⟨_, _, w₂, .handedOver id s claim w₂ recipient hh, hh.paid, ?_⟩)
      rw [hh.paid.book]
  | topUp id caller token amount =>
      obtain ⟨_, w₁, h, rfl, rfl⟩ := bind_ok.mp h
      obtain ⟨-, s, -, ht, rfl⟩ := topUp_ok h
      exact acts_of_acted (.inr (Action.toppedUp id s caller _ ht).acted)
  | pauseStream id sender =>
      obtain ⟨_, w₁, h, rfl, rfl⟩ := bind_ok.mp h
      obtain ⟨-, s, hs, -, hauth, hactive, rfl⟩ := pauseStream_ok h
      exact acts_of_acted (.inr (Action.paused (w := w.awake env.now) id s hs hauth hactive).silent)
  | resumeStream id sender =>
      obtain ⟨_, w₁, h, rfl, rfl⟩ := bind_ok.mp h
      obtain ⟨-, s, hs, -, hauth, hpaused, rfl⟩ := resumeStream_ok h
      exact acts_of_acted (.inr (Action.resumed (w := w.awake env.now) id s hs hauth hpaused).silent)
  | archiveStream id caller =>
      obtain ⟨_, w₁, h, rfl, rfl⟩ := bind_ok.mp h
      obtain ⟨s, ha, rfl⟩ := archiveStream_ok h
      exact acts_of_acted (.inl (Action.archived id s ha).silent)
  | delegate sender id operator =>
      obtain ⟨_, _, h, rfl, rfl⟩ := bind_ok.mp h
      obtain ⟨s, hs, -, hauth, rfl⟩ := delegate_ok h
      exact acts_of_acted (.inl (Action.delegated (w := w) id s (some operator) hs hauth).silent)
  | revokeDelegate sender id =>
      obtain ⟨_, _, h, rfl, rfl⟩ := bind_ok.mp h
      obtain ⟨s, hs, -, hauth, rfl⟩ := revokeDelegate_ok h
      exact acts_of_acted (.inl (Action.delegated (w := w) id s none hs hauth).silent)
  | updateMetadata sender id metadata =>
      obtain ⟨_, _, h, rfl, rfl⟩ := bind_ok.mp h
      obtain ⟨s, hs, -, hauth, -, rfl⟩ := updateMetadata_ok h
      exact acts_of_acted (.inl (Action.amended (w := w) id s metadata s.autoRenew hs hauth (fun h => h)).silent)
  | cancelAutoRenew sender id =>
      obtain ⟨_, _, h, rfl, rfl⟩ := bind_ok.mp h
      obtain ⟨s, hs, -, hauth, rfl⟩ := cancelAutoRenew_ok h
      exact acts_of_acted (.inl (Action.amended (w := w) id s s.metadata false hs hauth (by simp)).silent)

end SoroStream
