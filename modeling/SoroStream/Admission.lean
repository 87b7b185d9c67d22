import SoroStream.Lib.Avoids
import SoroStream.PauseWindow

namespace SoroStream

open Lib Lib.Rollback Lib.Rollback.Prog Contract

variable {host : Host} {env : Env host} {w w' v : World} {a : BatchArgs} {entry : BatchItem × StreamId}
  {entries : List (BatchItem × StreamId)} {ids : List StreamId} {nonce : U64}

def Transfer.bare (t : Transfer) : Address × Address × Address × Int := (t.token, t.payer, t.payee, t.amount)

def Blind (env : Env host) : Prop := ∀ b t t', t.bare = t'.bare → env.accepts b t = env.accepts b t'

def singleArgs (a : BatchArgs) (item : BatchItem) (nonce : U64) : CreateArgs where
  sender := a.sender
  recipient := item.recipient
  token := item.token
  amount := item.amount
  durationSeconds := a.durationSeconds
  cliffSeconds := 0
  nonce := nonce
  autoRenew := a.autoRenew
  lockUntil := item.lockUntil
  allowRecipientTermination := false
  metadata := []

/-- A nonce of the sender that is not used, and that names no stream that exists. -/
def Available (env : Env host) (a : BatchArgs) (item : BatchItem) (nonce : U64) (w : World) : Prop :=
  Storage.nonceUsed a.sender nonce.val w = false ∧
    Storage.streamExists (Storage.deriveStreamId host a.sender item.recipient env.now nonce.val) w = false

/-- `create_stream` takes the item too, moves the same amounts and stores the same record up to its ID. -/
def Alike (env : Env host) (a : BatchArgs) (entry : BatchItem × StreamId) (nonce : U64) (w v : World) : Prop :=
  ∃ newId v', createStream (singleArgs a entry.1 nonce) env w = .ok newId v' ∧
    v'.log.map Transfer.bare = v.log.map Transfer.bare ∧ v'.balances = v.balances ∧
    ∃ r, v.book.streams.lookup entry.2 = some r ∧ v'.book.streams.lookup newId = some { r with id := newId }

def TakenAlone (env : Env host) (a : BatchArgs) (entry : BatchItem × StreamId) (w : World) : Prop :=
  ∀ nonce, Available env a entry.1 nonce w → ∀ id v,
    batchCreateItem a env.now (env.now + a.durationSeconds.val) entry env w = .ok id v → Alike env a entry nonce w v

/-- What `create_stream` asks and a batch does not: a listed recipient, a stream that lasts,
and no flat fee. -/
def SinglyOpen (w : World) (a : BatchArgs) (recipient : Address) : Prop :=
  (Storage.isWhitelistEnabled w = true → Storage.isWhitelisted recipient w = true) ∧
    Storage.readMinDuration w ≤ a.durationSeconds.val ∧ Storage.getCreationFeeXlm w ≤ 0

theorem createStream_lasts {b : CreateArgs} {newId : StreamId} (h : createStream b env w = .ok newId w') :
    Storage.readMinDuration w ≤ b.durationSeconds.val := by
  simp only [createStream, ask, bind_ok, requireRunning_ok, requireAuth_ok, read_ok, failIf_ok, not_lt, and_assoc,
    exists_and_left, exists_eq_left', exists_const] at h
  obtain ⟨-, -, -, -, -, -, -, hlong, -⟩ := h
  exact hlong

theorem singlyOpen_config {recipient : Address} (h : w.config = v.config) :
    SinglyOpen w a recipient ↔ SinglyOpen v a recipient := by
  simp only [SinglyOpen, Storage.isWhitelistEnabled, Storage.isWhitelisted, Storage.readMinDuration,
    Storage.getCreationFeeXlm, h]

structure Midway (env : Env host) (w₀ : World) (a : BatchArgs) (entries : List (BatchItem × StreamId)) (w : World) :
    Prop where
  config : w.config = w₀.config
  running : w.pause.pausedAt env.now = false
  places : Storage.getSenderStreamCount a.sender w + entries.length ≤ Storage.effectiveSenderLimit a.sender w₀
  affordable : ∀ e ∈ entries, Affordable e.1 a.durationSeconds.val
  available : Along (batchCreateItem a env.now (env.now + a.durationSeconds.val))
    (fun e w => ∃ nonce, Available env a e.1 nonce w) env entries w

theorem midway_next {w₀ : World} {id : StreamId} (h : Midway env w₀ a (entry :: entries) w)
    (hitem : batchCreateItem a env.now (env.now + a.durationSeconds.val) entry env w = .ok id v) :
    Midway env w₀ a entries v := by
  obtain ⟨-, hrest⟩ := h.available
  refine ⟨?_, ?_, ?_, fun e he => h.affordable e (List.mem_cons_of_mem _ he), hrest id v hitem⟩
  all_goals obtain ⟨-, -, -, rfl⟩ := batchCreateItem_ok hitem
  · exact h.config
  · exact h.running
  · have hplaces := h.places
    have hcount : Storage.getSenderStreamCount a.sender
        ((w.pay [lockTransfer host (batchedStream a env.now entry)]).withBook
        (w.book.add (batchedStream a env.now entry))) = Storage.getSenderStreamCount a.sender w + 1 := by
      change (Function.update w.book.senders a.sender _ a.sender).size = _
      rw [Function.update_self]
      rfl
    rw [List.length_cons] at hplaces
    omega

/-- The same item alone, where the rules of `create_stream` let it in. -/
theorem taken_of_singlyOpen {w₀ : World} (hblind : Blind env) (hauth : env.auths a.sender = true)
    (hlong : 0 < a.durationSeconds.val) (hfits : env.now + a.durationSeconds.val ≤ u64Max)
    (h : Midway env w₀ a (entry :: entries) w) (hsingly : SinglyOpen w₀ a entry.1.recipient) :
    TakenAlone env a entry w := by
  rintro nonce ⟨hunused, hfree⟩ id v hitem
  obtain ⟨hlisted, hlasts, hfee⟩ := (singlyOpen_config h.config).mpr hsingly
  obtain ⟨-, hpay, hroom, rfl⟩ := batchCreateItem_ok hitem
  let single := singleArgs a entry.1 nonce
  have hopen := batchedStream_opening hauth (h.affordable entry (by simp)) hlong hfits
  have hplaces : Storage.getSenderStreamCount a.sender w < Storage.effectiveSenderLimit a.sender w := by
    have hlimit : Storage.effectiveSenderLimit a.sender w = Storage.effectiveSenderLimit a.sender w₀ := by
      simp only [Storage.effectiveSenderLimit, Storage.getSenderLimit,
        Storage.getMaxStreamsPerSender, h.config]
    have hroom := h.places
    rw [List.length_cons] at hroom
    omega
  have hunmarked : w.book.nonces a.sender nonce.val = none := by simpa [Storage.nonceUsed] using hunused
  have hunstored : w.book.streams.lookup (Storage.deriveStreamId host a.sender entry.1.recipient env.now nonce.val) =
      none := by simpa [Storage.streamExists, Storage.loadStream] using hfree
  have hsame : (lockTransfer host (createdStream host single env.now)).bare =
      (lockTransfer host (batchedStream a env.now entry)).bare := rfl
  have haccepted : env.accepts w.balances (lockTransfer host (createdStream host single env.now)) = true :=
    (hblind _ _ (lockTransfer host (batchedStream a env.now entry)) hsame).trans hpay.2.2
  have hcreation : Creation env (w.awake env.now) single [] := by
    refine ⟨hunmarked, ⟨hopen.signed, hopen.active, hopen.funded, hopen.rate, hopen.long, hopen.start, hopen.stop,
      hopen.fits, hopen.cliff, hopen.lock, hopen.untouched⟩, hunstored, if_neg (not_lt.mpr hfee), ?_, hroom⟩
    rw [pay_nil]
    exact ⟨hpay.1, hpay.2.1, haccepted⟩
  have hcreate := createStream_available h.running hcreation (not_lt.mpr hfee) hlong (Nat.zero_le _) hlisted hlasts
    hplaces
  refine ⟨_, _, hcreate, ?_, rfl, batchedStream a env.now entry, Finmap.lookup_insert _, ?_⟩
  · simp only [withBook_log, pay_log, awake_log, List.map_append]
    rfl
  · exact Finmap.lookup_insert _

theorem singlyOpen_of_taken {w₀ : World} {id : StreamId} (h : Midway env w₀ a (entry :: entries) w)
    (hitem : batchCreateItem a env.now (env.now + a.durationSeconds.val) entry env w = .ok id v)
    (htaken : TakenAlone env a entry w) : SinglyOpen w₀ a entry.1.recipient := by
  obtain ⟨⟨nonce, havailable⟩, -⟩ := h.available
  obtain ⟨newId, v', hcreate, hlog, -, -⟩ := htaken nonce havailable id v hitem
  obtain ⟨-, -, -, rfl⟩ := batchCreateItem_ok hitem
  refine (singlyOpen_config h.config).mp ⟨(createStream_admits hcreate).1, createStream_lasts hcreate, ?_⟩
  obtain ⟨-, -, fees, hcreation, rfl⟩ := createStream_ok hcreate
  simp only [withBook_log, pay_log, awake_log, List.map_append, List.append_cancel_left_eq] at hlog
  have hlength := congrArg List.length hlog
  simp only [List.length_append, List.length_map, List.length_singleton] at hlength
  obtain rfl : fees = [] := List.length_eq_zero_iff.mp (by omega)
  have hnone := hcreation.fees_eq
  by_contra hfee
  have hdue : 0 < Storage.getCreationFeeXlm (w.awake env.now) := not_le.mp hfee
  rw [creationFees, if_pos hdue] at hnone
  split at hnone
  · exact absurd (Option.some.inj hnone) (List.cons_ne_nil _ _)
  · exact absurd hnone.symm (Option.some_ne_none _)

theorem batchItems_recipients {rs : List Address} {as : List I128} {ts : List Address} {ls : List U64}
    (ha : rs.length = as.length) (ht : rs.length = ts.length) (hl : rs.length = ls.length) :
    (batchItems rs as ts ls).map BatchItem.recipient = rs := by
  induction rs generalizing as ts ls with
  | nil => simp [batchItems]
  | cons r rs ih =>
      obtain ⟨a, as, rfl⟩ := List.exists_cons_of_length_eq_add_one ha.symm
      obtain ⟨t, ts, rfl⟩ := List.exists_cons_of_length_eq_add_one ht.symm
      obtain ⟨l, ls, rfl⟩ := List.exists_cons_of_length_eq_add_one hl.symm
      rw [batchItems, List.map_cons, ih (Nat.succ.inj ha) (Nat.succ.inj ht) (Nat.succ.inj hl)]

/-- The four argument vectors of an accepted batch are of one length. -/
theorem batchCreateStream_lengths (h : batchCreateStream a env w = .ok ids w') :
    a.recipients.length = a.amounts.length ∧ a.recipients.length = a.tokens.length ∧
      a.recipients.length = a.lockUntils.length := by
  simp only [batchCreateStream, ask, bind_ok, requireRunning_ok, requireAuth_ok, read_ok, failIf_ok, not_or, ne_eq,
    not_not, incrementBatchNonce_ok, and_assoc, exists_and_left, exists_eq_left', exists_const] at h
  obtain ⟨-, -, -, -, ha, hl, ht, -⟩ := h
  exact ⟨ha, ht, hl⟩

theorem batchEntries_recipients (h : batchCreateStream a env w = .ok ids w') :
    (batchEntries host a env.now).map (fun e => e.1.recipient) = a.recipients := by
  obtain ⟨ha, ht, hl⟩ := batchCreateStream_lengths h
  have hitems : (batchEntries host a env.now).map Prod.fst = batchItems a.recipients a.amounts a.tokens a.lockUntils :=
    List.map_fst_zip (derivedIds_length _ _ _ _).ge
  rw [← batchItems_recipients ha ht hl, ← hitems, List.map_map]
  rfl

/-- The state after the checks of an accepted batch, when it comes to its first item. -/
def World.batchStarted (w : World) (a : BatchArgs) (now : Nat) : World :=
  (w.awake now).withBook (w.book.countBatch a.sender (a.nonce.val + 1))

/-- A batch admits what `create_stream` would admit item by item, at the same price, exactly
when its recipients are listed, its streams last and no flat fee is set. -/
theorem batch_admission_iff (env : Env host) (hblind : Blind env) (hbatch : batchCreateStream a env w = .ok ids w')
    (havailable : Along (batchCreateItem a env.now (env.now + a.durationSeconds.val))
      (fun e w => ∃ nonce, Available env a e.1 nonce w) env (batchEntries host a env.now) (w.batchStarted a env.now)) :
    Along (batchCreateItem a env.now (env.now + a.durationSeconds.val)) (TakenAlone env a) env
        (batchEntries host a env.now) (w.batchStarted a env.now) ↔
      ∀ recipient ∈ a.recipients, SinglyOpen w a recipient := by
  obtain ⟨hrun, hb, hitems⟩ := batchCreateStream_ok hbatch
  have hplaces := batchCreateStream_admits hbatch
  have hlength := batchEntries_length_le host a env.now
  have hstart : Midway env w a (batchEntries host a env.now) (w.batchStarted a env.now) := by
    refine ⟨rfl, ?_, ?_, hb.affordable, havailable⟩
    · change (w.pause.settle env.now).pausedAt env.now = false
      rw [settle_pausedAt le_rfl, hrun]
    · change Storage.getSenderStreamCount a.sender w + _ ≤ _
      omega
  rw [← batchEntries_recipients hbatch, List.forall_mem_map]
  refine along_iff (Midway env w a) ?_ hstart hitems
  intro entry entries v id v' hv hitem
  exact ⟨⟨singlyOpen_of_taken hv hitem, taken_of_singlyOpen hblind hb.signed hb.long hb.fits hv⟩, midway_next hv hitem⟩

namespace Sample

def batchOfOne (recipient : Address) : BatchArgs where
  sender := party 2
  recipients := [recipient]
  amounts := [(terms 0 0).amount]
  tokens := [party 9]
  durationSeconds := 4000
  autoRenew := false
  lockUntils := [0]
  nonce := 0

def closing : Chain :=
  genesis.after [configure [4] 1 (.initializeContract (party 4) "1.0.0"),
    configure [4] 2 (.setWhitelistEnabled (party 4) true)]

theorem signed_blind (parties : List Nat) (time : U64) : Blind (signed parties time) := fun _ _ _ _ => rfl

end Sample

theorem sample_batch_admission :
    Along (batchCreateItem (Sample.batchOfOne (Sample.party 3)) 15 (15 + 4000))
        (TakenAlone (Sample.signed [2] 15) (Sample.batchOfOne (Sample.party 3))) (Sample.signed [2] 15)
        (batchEntries Sample.site (Sample.batchOfOne (Sample.party 3)) 15)
        (Sample.genesis.world.batchStarted (Sample.batchOfOne (Sample.party 3)) 15) ↔
      ∀ recipient ∈ [Sample.party 3],
        SinglyOpen Sample.genesis.world (Sample.batchOfOne (Sample.party 3)) recipient := by
  have hbatch : batchCreateStream (Sample.batchOfOne (Sample.party 3)) (Sample.signed [2] 15) Sample.genesis.world =
      .ok [2315000] _ := Outcome.ok_commit (by decide +kernel) Sample.genesis.world
  refine batch_admission_iff (Sample.signed [2] 15) (Sample.signed_blind [2] 15) hbatch ⟨⟨0, ?_⟩, fun _ _ _ => trivial⟩
  exact ⟨by decide +kernel, by decide +kernel⟩

/-- With the whitelist enabled a batch streams to somebody who is not on it, and
`create_stream` refuses the same stream. -/
theorem batch_skips_whitelist :
    Reached Sample.site Sample.closing ∧
    (batchCreateStream (Sample.batchOfOne (Sample.party 6)) (Sample.signed [2] 15) Sample.closing.world).value? =
      some [2615000] ∧
    Available (Sample.signed [2] 15) (Sample.batchOfOne (Sample.party 6))
      ⟨Sample.party 6, (Sample.terms 0 0).amount, Sample.party 9, 0⟩ 0
      (Sample.closing.world.batchStarted (Sample.batchOfOne (Sample.party 6)) 15) ∧
    (∃ v, createStream (singleArgs (Sample.batchOfOne (Sample.party 6))
      ⟨Sample.party 6, (Sample.terms 0 0).amount, Sample.party 9, 0⟩ 0) (Sample.signed [2] 15)
      (Sample.closing.world.batchStarted (Sample.batchOfOne (Sample.party 6)) 15) = .err .recipientNotWhitelisted v) ∧
    ¬Along (batchCreateItem (Sample.batchOfOne (Sample.party 6)) 15 (15 + 4000))
      (TakenAlone (Sample.signed [2] 15) (Sample.batchOfOne (Sample.party 6))) (Sample.signed [2] 15)
      (batchEntries Sample.site (Sample.batchOfOne (Sample.party 6)) 15)
      (Sample.closing.world.batchStarted (Sample.batchOfOne (Sample.party 6)) 15) := by
  have havailable : Available (Sample.signed [2] 15) (Sample.batchOfOne (Sample.party 6))
      ⟨Sample.party 6, (Sample.terms 0 0).amount, Sample.party 9, 0⟩ 0
      (Sample.closing.world.batchStarted (Sample.batchOfOne (Sample.party 6)) 15) :=
    ⟨by decide +kernel, by decide +kernel⟩
  have hrefused : ∃ v, createStream (singleArgs (Sample.batchOfOne (Sample.party 6))
      ⟨Sample.party 6, (Sample.terms 0 0).amount, Sample.party 9, 0⟩ 0) (Sample.signed [2] 15)
      (Sample.closing.world.batchStarted (Sample.batchOfOne (Sample.party 6)) 15) = .err .recipientNotWhitelisted v :=
    ⟨_, rfl⟩
  refine ⟨reached_after Sample.genesis_fresh (by decide), by decide +kernel, havailable, hrefused, ?_⟩
  rintro ⟨htaken, -⟩
  have hitem : batchCreateItem (Sample.batchOfOne (Sample.party 6)) 15 (15 + 4000)
      (⟨Sample.party 6, (Sample.terms 0 0).amount, Sample.party 9, 0⟩, 2615000) (Sample.signed [2] 15)
      (Sample.closing.world.batchStarted (Sample.batchOfOne (Sample.party 6)) 15) = .ok 2615000 _ :=
    Outcome.ok_commit (by decide +kernel) Sample.genesis.world
  obtain ⟨newId, v', hcreate, -⟩ := htaken 0 havailable _ _ hitem
  obtain ⟨v, hv⟩ := hrefused
  rw [hv] at hcreate
  cases hcreate

end SoroStream
