import SoroStream.Closing

namespace SoroStream

open Lib Lib.Rollback Lib.Rollback.Prog Contract

variable {host : Host} {env : Env host} {w w' : World} {u : Unit} {id : StreamId}

def lockTransfer (host : Host) (s : Stream) : Transfer :=
  ⟨s.token, s.sender, host.contract, s.deposit, .lock s.id⟩

structure Opening (env : Env host) (s : Stream) (duration : Nat) : Prop where
  signed : env.auths s.sender = true
  active : s.status = .active
  funded : 0 < s.deposit ∧ s.deposit ≤ i128Max
  rate : s.flowRate = s.deposit.tdiv duration ∧ s.flowRate ≠ 0
  long : 0 < duration
  start : s.startTime = env.now
  stop : s.endTime = env.now + duration
  fits : s.endTime ≤ u64Max
  cliff : s.cliffTime ≤ s.endTime
  lock : s.lockUntil ≤ u64Max
  untouched : s.lastWithdrawTime = env.now ∧ s.lastPauseTime = 0 ∧ s.totalWithdrawn = 0

/-- The flat fee, when the admin has set one and said where it goes. -/
def creationFees (w : World) (sender : Address) (id : StreamId) : Option (List Transfer) :=
  if 0 < Storage.getCreationFeeXlm w then
    match Storage.getTreasury w, Storage.getXlmToken w with
    | some treasury, some xlm => some [⟨xlm, sender, treasury, Storage.getCreationFeeXlm w, .creationFee id⟩]
    | _, _ => none
  else some []

theorem collectCreationFee_ok {sender : Address} (h : collectCreationFee sender id env w = .ok u w') :
    ∃ ts, creationFees w sender id = some ts ∧ (∀ t ∈ ts, Payable env w t) ∧ w.pay ts = w' := by
  simp only [collectCreationFee, ask, read_bind, ite_ok, okOr_bind_ok, transfer_ok, pure_ok] at h
  rcases h with ⟨hpos, t, ht, x, hx, hpay, rfl⟩ | ⟨hpos, -, rfl⟩
  · exact ⟨_, by simp only [creationFees, if_pos hpos, ht, hx], by simpa using hpay, rfl⟩
  · exact ⟨[], by simp only [creationFees, if_neg hpos], by simp, pay_nil w⟩

theorem creationFees_payer {sender : Address} {ts : List Transfer}
    (h : creationFees w sender id = some ts) :
    ∀ t ∈ ts, t.payer = sender ∧ 0 ≤ t.amount ∧ t.cause = .creationFee id := by
  unfold creationFees at h
  split at h
  · next hpos =>
      split at h
      · obtain rfl := Option.some.inj h
        simpa using hpos.le
      · simp at h
  · obtain rfl := Option.some.inj h
    simp

def createdStream (host : Host) (a : CreateArgs) (now : Nat) : Stream where
  id := Storage.deriveStreamId host a.sender a.recipient now a.nonce.val
  sender := a.sender
  recipient := a.recipient
  token := a.token
  deposit := a.amount.val
  flowRate := a.amount.val.tdiv a.durationSeconds.val
  startTime := now
  cliffTime := now + a.cliffSeconds.val
  lockUntil := a.lockUntil.val
  endTime := now + a.durationSeconds.val
  lastWithdrawTime := now
  status := .active
  autoRenew := a.autoRenew
  allowRecipientTermination := a.allowRecipientTermination
  lastPauseTime := 0
  totalWithdrawn := 0
  metadata := a.metadata

structure Creation (env : Env host) (w : World) (a : CreateArgs) (fees : List Transfer) : Prop where
  unused : w.book.nonces a.sender a.nonce.val = none
  opening : Opening env (createdStream host a env.now) a.durationSeconds.val
  free : w.book.streams.lookup (createdStream host a env.now).id = none
  fees_eq : creationFees w a.sender (createdStream host a env.now).id = some fees
  payable : Payable env (w.pay fees) (lockTransfer host (createdStream host a env.now))
  room : w.book.RoomFor (createdStream host a env.now)

theorem createStream_ok {a : CreateArgs} {newId : StreamId} (h : createStream a env w = .ok newId w') :
    w.pause.pausedAt env.now = false ∧ newId = (createdStream host a env.now).id ∧
      ∃ fees, Creation env (w.awake env.now) a fees ∧
        ((w.awake env.now).pay (fees ++ [lockTransfer host (createdStream host a env.now)])).withBook
          ((w.book.markNonce a.sender a.nonce.val).add (createdStream host a env.now)) = w' := by
  simp only [createStream, timestamp, ask, read_bind, bind_ok, requireRunning_ok, requireAuth_ok, okOr_ok, failIf_ok,
    not_le, not_lt, divI128_ok, checkedAddU64, Checked.addNat_eq_some, markNonceUsed_ok, transfer_ok,
    addStream_ok, pure_ok, and_assoc, exists_and_left, exists_eq_left', exists_const] at h
  obtain ⟨hauth, hrun, hunused, hpos, hcliff, -, -, -, -, hrate, -, hfits, hlong, -, hfree, _, _, hcollect, h⟩ := h
  obtain ⟨hlock, hroom, rfl, rfl⟩ := h
  obtain ⟨fees, hfees, -, rfl⟩ := collectCreationFee_ok hcollect
  refine ⟨hrun, rfl, fees, ⟨?_, ?_, ?_, hfees, hlock, hroom⟩, ?_⟩
  · simpa [Storage.nonceUsed] using hunused
  · have hc := Nat.add_le_add_left (Nat.le_of_lt hcliff) env.now
    have hlast : a.lockUntil.val ≤ u64Max := Nat.le_of_lt_succ a.lockUntil.isLt
    exact ⟨hauth, rfl, ⟨hpos, a.amount.2.2⟩, ⟨rfl, hrate⟩, by omega, rfl, rfl, hfits, hc, hlast, rfl, rfl, rfl⟩
  · simpa [Storage.streamExists, Storage.loadStream, createdStream, Book.markNonce] using hfree
  · rw [pay_pay]
    rfl

/-- What the sender and the recipient must be for a creation to go through. -/
theorem createStream_admits {a : CreateArgs} {newId : StreamId} (h : createStream a env w = .ok newId w') :
    (Storage.isWhitelistEnabled w = true → Storage.isWhitelisted a.recipient w = true) ∧
      Storage.getSenderStreamCount a.sender w < Storage.effectiveSenderLimit a.sender w := by
  simp only [createStream, ask, read_bind, bind_ok, requireRunning_ok, requireAuth_ok, failIf_ok, not_and, not_le,
    Bool.not_eq_false, divI128_ok, and_assoc, exists_and_left, exists_eq_left', exists_const] at h
  obtain ⟨-, -, -, -, -, -, hlisted, -, -, -, hlimit, -⟩ := h
  exact ⟨hlisted, hlimit⟩

theorem createStream_available {a : CreateArgs} (hrun : w.pause.pausedAt env.now = false)
    (hc : Creation env (w.awake env.now) a []) (hfee : ¬0 < Storage.getCreationFeeXlm w)
    (hcliff : a.cliffSeconds.val < a.durationSeconds.val) (hmetadata : a.metadata.length ≤ 64)
    (hlisted : Storage.isWhitelistEnabled w = true → Storage.isWhitelisted a.recipient w = true)
    (hlong : Storage.readMinDuration w ≤ a.durationSeconds.val)
    (hlimit : Storage.getSenderStreamCount a.sender w < Storage.effectiveSenderLimit a.sender w) :
    createStream a env w = .ok (createdStream host a env.now).id
      (((w.awake env.now).pay [lockTransfer host (createdStream host a env.now)]).withBook
        ((w.book.markNonce a.sender a.nonce.val).add (createdStream host a env.now))) := by
  have hopen := hc.opening
  have hnoFee : ∀ id (v : World), v.config = w.config → collectCreationFee a.sender id env v = .ok () v := by
    intro id v hv
    have hsame : Storage.getCreationFeeXlm v = Storage.getCreationFeeXlm w := by
      rw [Storage.getCreationFeeXlm, Storage.getCreationFeeXlm, hv]
    simp only [collectCreationFee, ask, read_bind, hsame, if_neg hfee, pure_apply]
  have hlong' : (a.durationSeconds.val : Int) ≠ 0 := by
    have hpos := hopen.long
    omega
  simp only [createStream, timestamp, ask, bind_ok, requireRunning_ok, requireAuth_ok, read_ok, okOr_ok, failIf_ok,
    not_le, not_lt, divI128_ok, checkedAddU64, Checked.addNat_eq_some, markNonceUsed_ok, transfer_ok, addStream_ok,
    pure_ok, and_assoc, exists_and_left, exists_eq_left', exists_const]
  refine ⟨hopen.signed, hrun, ?_, hopen.funded.1, hcliff, hmetadata, ?_, hlong, hlong', hopen.rate.2, hlimit, hopen.fits,
    Nat.lt_add_of_pos_right hopen.long, hopen.cliff.trans hopen.fits, ?_, _, _, hnoFee _ _ rfl, ?_, hc.room, rfl, rfl⟩
  · simpa [Storage.nonceUsed] using hc.unused
  · rintro ⟨hon, hoff⟩
    exact Bool.noConfusion (hoff.symm.trans (hlisted hon))
  · simpa [Storage.streamExists, Storage.loadStream, createdStream, Book.markNonce] using hc.free
  · have hpay := hc.payable
    rw [pay_nil] at hpay
    exact hpay

def derivedIds (host : Host) (sender : Address) (now : Nat) : List BatchItem → Nat → List StreamId
  | [], _ => []
  | item :: items, i =>
      Storage.deriveStreamId host sender item.recipient now i :: derivedIds host sender now items (i + 1)

theorem derivedIds_length (sender : Address) (now : Nat) (items : List BatchItem) (i : Nat) :
    (derivedIds host sender now items i).length = items.length := by
  induction items generalizing i with
  | nil => rfl
  | cons item items ih => simp [derivedIds, ih]

def Affordable (item : BatchItem) (duration : Nat) : Prop :=
  0 < item.amount.val ∧ item.amount.val.tdiv duration ≠ 0

theorem batchIds_ok {sender : Address} {now duration : Nat} {items : List BatchItem} {i : Nat}
    {ids out : List StreamId} (h : batchIds sender now duration items i ids env w = .ok out w') :
    w = w' ∧ out = ids ++ derivedIds host sender now items i ∧ (ids.Nodup → out.Nodup) ∧
      (∀ id ∈ derivedIds host sender now items i, w.book.streams.lookup id = none) ∧
      ∀ item ∈ items, Affordable item duration := by
  induction items generalizing i ids with
  | nil =>
      obtain ⟨rfl, rfl⟩ := pure_ok.mp h
      simp [derivedIds]
  | cons item items ih =>
      simp only [batchIds, ask, read_bind, bind_ok, failIf_ok, not_le, divI128_ok, and_assoc, exists_and_left,
        exists_eq_left', exists_const] at h
      obtain ⟨hpos, -, hrate, hfree, hnew, h⟩ := h
      obtain ⟨rfl, rfl, hnodup, hrest, hitems⟩ := ih h
      refine ⟨rfl, by simp [derivedIds], ?_, ?_, ?_⟩
      · intro hids
        refine hnodup (List.nodup_append.mpr ⟨hids, by simp, ?_⟩)
        rintro id hid _ hmem rfl
        exact hnew (List.mem_singleton.mp hmem ▸ hid)
      · intro id hid
        rcases List.mem_cons.mp hid with rfl | hid
        · simpa [Storage.streamExists, Storage.loadStream] using hfree
        · exact hrest id hid
      · intro it hit
        rcases List.mem_cons.mp hit with rfl | hit
        · exact ⟨hpos, hrate⟩
        · exact hitems it hit

def batchedStream (a : BatchArgs) (now : Nat) (entry : BatchItem × StreamId) : Stream :=
  batchStream a now (now + a.durationSeconds.val) entry.1 entry.2
    (entry.1.amount.val.tdiv a.durationSeconds.val)

theorem batchCreateItem_ok {a : BatchArgs} {now : Nat} {entry : BatchItem × StreamId} {newId : StreamId}
    (h : batchCreateItem a now (now + a.durationSeconds.val) entry env w = .ok newId w') :
    newId = entry.2 ∧ Payable env w (lockTransfer host (batchedStream a now entry)) ∧
      w.book.RoomFor (batchedStream a now entry) ∧
      (w.pay [lockTransfer host (batchedStream a now entry)]).withBook
        (w.book.add (batchedStream a now entry)) = w' := by
  simp only [batchCreateItem, bind_ok, divI128_ok, transfer_ok, addStream_ok, pure_ok, and_assoc, exists_and_left,
    exists_eq_left', exists_const] at h
  obtain ⟨-, hpay, hroom, rfl, rfl⟩ := h
  exact ⟨rfl, hpay, hroom, rfl⟩

theorem batchedStream_opening {a : BatchArgs} {entry : BatchItem × StreamId}
    (hauth : env.auths a.sender = true) (hitem : Affordable entry.1 a.durationSeconds.val)
    (hlong : 0 < a.durationSeconds.val) (hfits : env.now + a.durationSeconds.val ≤ u64Max) :
    Opening env (batchedStream a env.now entry) a.durationSeconds.val :=
  ⟨hauth, rfl, ⟨hitem.1, entry.1.amount.2.2⟩, ⟨rfl, hitem.2⟩, hlong, rfl, rfl, hfits,
    Nat.le_add_right _ _, Nat.le_of_lt_succ entry.1.lockUntil.isLt, rfl, rfl, rfl⟩

def batchEntries (host : Host) (a : BatchArgs) (now : Nat) : List (BatchItem × StreamId) :=
  let items := batchItems a.recipients a.amounts a.tokens a.lockUntils
  items.zip (derivedIds host a.sender now items 0)

structure BatchCreation (env : Env host) (w : World) (a : BatchArgs) : Prop where
  signed : env.auths a.sender = true
  nonce : a.nonce.val = Storage.getBatchNonce a.sender w
  long : 0 < a.durationSeconds.val
  fits : env.now + a.durationSeconds.val ≤ u64Max
  distinct : ((batchEntries host a env.now).map Prod.snd).Nodup
  free : ∀ e ∈ batchEntries host a env.now, w.book.streams.lookup e.2 = none
  affordable : ∀ e ∈ batchEntries host a env.now, Affordable e.1 a.durationSeconds.val

theorem batchEntries_ids (host : Host) (a : BatchArgs) (now : Nat) :
    (batchEntries host a now).map Prod.snd =
      derivedIds host a.sender now (batchItems a.recipients a.amounts a.tokens a.lockUntils) 0 :=
  List.map_snd_zip (derivedIds_length _ _ _ _).le

theorem batchCreateStream_ok {a : BatchArgs} {ids : List StreamId}
    (h : batchCreateStream a env w = .ok ids w') :
    w.pause.pausedAt env.now = false ∧ BatchCreation env (w.awake env.now) a ∧
      each (batchCreateItem a env.now (env.now + a.durationSeconds.val)) (batchEntries host a env.now) env
        ((w.awake env.now).withBook (w.book.countBatch a.sender (a.nonce.val + 1))) = .ok ids w' := by
  simp only [batchCreateStream, timestamp, ask, read_bind, bind_ok, requireRunning_ok, requireAuth_ok, okOr_ok,
    okOrHalt_ok, failIf_ok, not_le, not_lt, ne_eq, not_not, checkedAddU64, checkedAddU32, Checked.addNat_eq_some,
    incrementBatchNonce_ok, and_assoc, exists_and_left, exists_eq_left', exists_const] at h
  obtain ⟨hrun, hauth, hnonce, -, -, hfits, hlong, -, -, out, _, hids, h⟩ := h
  obtain ⟨rfl, rfl, hnodup, hfree, hitems⟩ := batchIds_ok hids
  rw [← hnonce] at h
  have hentries := batchEntries_ids host a env.now
  refine ⟨hrun, ⟨hauth, hnonce, by omega, hfits, ?_, ?_, ?_⟩, h⟩
  · rw [hentries]
    exact hnodup List.nodup_nil
  · intro e he
    exact hfree e.2 (hentries ▸ List.mem_map_of_mem he)
  · intro e he
    exact hitems e.1 (List.of_mem_zip he).1

theorem batchCreateStream_admits {a : BatchArgs} {ids : List StreamId}
    (h : batchCreateStream a env w = .ok ids w') :
    Storage.getSenderStreamCount a.sender w + a.recipients.length ≤ Storage.effectiveSenderLimit a.sender w := by
  simp only [batchCreateStream, timestamp, ask, read_bind, bind_ok, requireRunning_ok, requireAuth_ok, okOr_ok,
    okOrHalt_ok, failIf_ok, not_lt, checkedAddU32, Checked.addNat_eq_some, incrementBatchNonce_ok, and_assoc,
    exists_and_left, exists_eq_left', exists_const] at h
  obtain ⟨-, -, -, -, -, _, -, -, -, hlimit, -⟩ := h
  exact hlimit

theorem batchItems_length_le (rs : List Address) (as : List I128) (ts : List Address) (ls : List U64) :
    (batchItems rs as ts ls).length ≤ rs.length := by
  induction rs generalizing as ts ls with
  | nil => simp [batchItems]
  | cons r rs ih =>
      rcases as with _ | ⟨a, as⟩
      · simp [batchItems]
      rcases ts with _ | ⟨t, ts⟩
      · simp [batchItems]
      rcases ls with _ | ⟨l, ls⟩
      · simp [batchItems]
      exact Nat.succ_le_succ (ih as ts ls)

theorem batchEntries_length_le (host : Host) (a : BatchArgs) (now : Nat) :
    (batchEntries host a now).length ≤ a.recipients.length :=
  (List.length_zip.trans_le (Nat.min_le_left _ _)).trans (batchItems_length_le _ _ _ _)

end SoroStream
