import SoroStream.Reports

namespace SoroStream

open Lib Lib.Rollback Lib.Rollback.Prog Lib.Runs Contract

variable {host : Host} {env : Env host} {w w' : World} {single : Bool} {l l' : List Published} {u : Unit}
  {id : StreamId} {s : Stream} {amount : Int}

theorem closed_reported {t : Nat} (bySender : Bool) (hs : w.book.streams.lookup id = some s) (hlive : s.Live)
    (hamount : earnedAt s t = some amount ∨ claimableAt s t = some amount) (hcov : Covered env w s amount) :
    Reported env single (closingEvents id s amount bySender) w (closed host w id s amount) :=
  (Report.closed id s t amount bySender hs hlive hamount hcov).reported

theorem cancelStream_reported {caller : Address} (h : Emitting.cancelStream id caller env (w, l) = .ok u (w', l')) :
    ∃ es, l' = l ++ es ∧ Reported env single es w w' := by
  simp only [Emitting.cancelStream, timestamp, ask, quietly_seq_ok, quietly_read_bind, requireAuth_ok,
    requireSenderOrDelegate_ok, okOr_bind_ok, failIf_bind_ok, not_not, payOutAndClose_ok, publish_ok, Prod.mk.injEq,
    and_assoc, exists_and_left, exists_eq_left'] at h
  obtain ⟨-, s, hs, -, hlive, amount, hearned, hcov, rfl, rfl⟩ := h
  exact ⟨_, rfl, closed_reported true hs hlive (.inl hearned) hcov⟩

theorem recipientTerminate_reported {recipient : Address}
    (h : Emitting.recipientTerminate id recipient env (w, l) = .ok u (w', l')) :
    ∃ es, l' = l ++ es ∧ Reported env single es (w.awake env.now) w' := by
  simp only [Emitting.recipientTerminate, timestamp, ask, quietly_seq_ok, quietly_read_bind, requireRunning_ok,
    requireAuth_ok, okOr_bind_ok, failIf_bind_ok, not_not, payOutAndClose_ok, publish_ok, Prod.mk.injEq, and_assoc,
    exists_and_left, exists_eq_left'] at h
  obtain ⟨-, -, s, hs, rfl, -, hlive, amount, hclaim, hcov, rfl, rfl⟩ := h
  exact ⟨_, rfl, closed_reported false hs hlive (.inr hclaim) hcov⟩

theorem batchCancelItem_err_told {sender : Address} {e : StreamError}
    (h : Emitting.batchCancelItem sender id env (w, l) = .err e (w', l')) : w = w' ∧ l = l' := by
  simp only [Emitting.batchCancelItem, timestamp, ask, quietly_seq_err, quietly_read_bind, okOr_bind_err,
    failIf_bind_err, payOutAndClose_err, publish, update_err, false_and, exists_false, and_false, or_false,
    Prod.mk.injEq] at h
  rcases h with ⟨-, -, hsame⟩ | ⟨s, -, ⟨-, -, hsame⟩ | ⟨-, ⟨-, -, hsame⟩ | ⟨-, -, -, hsame⟩⟩⟩
  all_goals exact hsame

theorem partialCancelStream_reported {caller : Address} {cancelAmount : Int} {newId : StreamId}
    (h : Emitting.partialCancelStream id caller cancelAmount env (w, l) = .ok newId (w', l')) :
    ∃ es, l' = l ++ es ∧ Reported env single es w w' := by
  obtain ⟨-, s, earned, streamed, -, -, hsplit, rfl⟩ :=
    partialCancelStream_ok (w := w) (Erases.ok (y := Contract.partialCancelStream id caller cancelAmount) h)
  simp only [Emitting.partialCancelStream, timestamp, ask, quietly_bind_ok, quietly_read_bind, requireAuth_ok,
    requireSenderOrDelegate_ok, Storage.loadStream, hsplit.stored, hsplit.earned_eq, hsplit.streamed_eq, okOr_bind_ok,
    failIf_bind_ok, checkedFlowAmount_ok, divI128_ok, transferPositive_ok, transfer_ok, saveStream_ok, addStream_ok,
    publish_bind, pure_ok, Option.some.injEq, Prod.mk.injEq, and_assoc, exists_and_left, exists_eq_left',
    exists_const] at h
  obtain ⟨-, -, -, -, -, -, -, _, -, -, -, -, -, -, rfl⟩ := h
  exact ⟨_, List.append_assoc .., (Report.split id s _ _ _ hsplit).reported⟩

theorem archiveStream_reported {caller : Address} (h : Emitting.archiveStream id caller env (w, l) = .ok u (w', l')) :
    ∃ es, l' = l ++ es ∧ Reported env single es w w' := by
  obtain ⟨s, ha, rfl⟩ := archiveStream_ok (w := w) (Erases.ok (y := Contract.archiveStream id caller) h)
  simp only [Emitting.archiveStream, ask, quietly_bind_ok, quietly_read_bind, requireAuth_ok, Storage.loadStream,
    ha.stored, okOr_bind_ok, failIf_bind_ok, publish_ok, Option.some.injEq, Prod.mk.injEq, and_assoc, exists_and_left,
    exists_eq_left', exists_const] at h
  obtain ⟨-, -, -, _, _, -, _, _, -, -, rfl⟩ := h
  exact ⟨_, rfl, (Report.archived id s ha).silent⟩

theorem topUp_reported {caller token : Address}
    (h : Emitting.topUp id caller token amount env (w, l) = .ok u (w', l')) :
    ∃ es, l' = l ++ es ∧ Reported env single es (w.awake env.now) w' := by
  obtain ⟨-, s, -, ht, rfl⟩ := topUp_ok (w := w) (Erases.ok (y := Contract.topUp id caller token amount) h)
  have hs : w.book.streams.lookup id = some s := ht.stored
  simp only [Emitting.topUp, ask, quietly_bind_ok, quietly_read_bind, requireRunning_ok, requireAuth_ok,
    Storage.loadStream, awake_book, hs, okOr_bind_ok, requireSenderOrDelegate_ok, failIf_bind_ok, remI128_ok,
    transfer_ok, divI128_ok, checkedAddU64, Checked.addNat_eq_some, saveStream_ok, publish_ok, Option.some.injEq,
    Prod.mk.injEq, and_assoc, exists_and_left, exists_eq_left', exists_const] at h
  obtain ⟨-, -, -, -, -, -, -, -, -, -, -, -, _, -, -, rfl⟩ := h
  exact ⟨_, rfl, (Report.toppedUp id s caller amount ht).reported⟩

theorem updateMetadata_reported {sender : Address} {metadata : List UInt8}
    (h : Emitting.updateMetadata sender id metadata env (w, l) = .ok u (w', l')) :
    ∃ es, l' = l ++ es ∧ Reported env single es w w' := by
  simp only [Emitting.updateMetadata, quietly_bind_ok, loadForSender_ok, failIf_bind_ok, saveStream_ok, publish_ok,
    Prod.mk.injEq, and_assoc, exists_and_left, exists_eq_left', exists_const] at h
  obtain ⟨s, hs, rfl, hauth, -, rfl, rfl⟩ := h
  exact ⟨_, rfl, (Report.relabelled id s metadata hs hauth).silent⟩

theorem cancelAutoRenew_reported {sender : Address}
    (h : Emitting.cancelAutoRenew sender id env (w, l) = .ok u (w', l')) :
    ∃ es, l' = l ++ es ∧ Reported env single es w w' := by
  simp only [Emitting.cancelAutoRenew, quietly_bind_ok, loadForSender_ok, saveStream_ok, publish_ok, Prod.mk.injEq,
    and_assoc, exists_and_left, exists_eq_left', exists_const] at h
  obtain ⟨s, hs, rfl, hauth, rfl, rfl⟩ := h
  exact ⟨_, rfl, (Report.renewalCancelled id s hs hauth).silent⟩

theorem pauseStream_reported {sender : Address} (h : Emitting.pauseStream id sender env (w, l) = .ok u (w', l')) :
    ∃ es, l' = l ++ es ∧ Reported env single es (w.awake env.now) w' := by
  simp only [Emitting.pauseStream, timestamp, quietly_bind_ok, quietly_read_bind, requireRunning_ok, loadForSender_ok,
    failIf_bind_ok, not_not, saveStream_ok, publish_ok, Prod.mk.injEq, and_assoc, exists_and_left, exists_eq_left',
    exists_const] at h
  obtain ⟨-, s, hs, rfl, hauth, hactive, rfl, rfl⟩ := h
  exact ⟨_, rfl, (Report.paused (w := w.awake env.now) id s hs hauth hactive).silent⟩

theorem resumeStream_reported {sender : Address} (h : Emitting.resumeStream id sender env (w, l) = .ok u (w', l')) :
    ∃ es, l' = l ++ es ∧ Reported env single es (w.awake env.now) w' := by
  simp only [Emitting.resumeStream, timestamp, quietly_bind_ok, quietly_read_bind, requireRunning_ok, loadForSender_ok,
    failIf_bind_ok, not_not, saveStream_ok, publish_ok, Prod.mk.injEq, and_assoc, exists_and_left, exists_eq_left',
    exists_const] at h
  obtain ⟨-, s, hs, rfl, hauth, hpaused, rfl, rfl⟩ := h
  exact ⟨_, rfl, (Report.resumed (w := w.awake env.now) id s hs hauth hpaused).silent⟩

def Published.qualifies : Published → Bool
  | .recipientTransferred .. | .streamPartialCancelled .. => true
  | _ => false

abbrev Reports (env : Env host) (single : Bool) : List Published → World → World → Prop :=
  Emits fun es w w' => Reported env single es w w' ∧ ∀ e ∈ es, e.qualifies = false

def Told (env : Env host) (single : Bool) (a b : World × List Published) : Prop :=
  ∃ es, b.2 = a.2 ++ es ∧ Reports env single es a.1 b.1

theorem Told.refl (a : World × List Published) : Told env single a a := ⟨[], (List.append_nil _).symm, .refl _⟩

theorem Told.trans {a b c : World × List Published} (h : Told env single a b) (h' : Told env single b c) :
    Told env single a c := by
  obtain ⟨es, hes, hr⟩ := h
  obtain ⟨es', hes', hr'⟩ := h'
  exact ⟨es ++ es', by rw [hes', hes, List.append_assoc], hr.trans hr'⟩

theorem creationEvents_plain (s : Stream) (fees : List Transfer) :
    ∀ e ∈ creationEvents s fees, e.qualifies = false := by
  intro e he
  rcases List.mem_append.mp he with he | he
  · obtain ⟨t, -, rfl⟩ := List.mem_map.mp he
    rfl
  · rw [List.mem_singleton.mp he]
    rfl

theorem closingEvents_plain (id : StreamId) (s : Stream) (amount : Int) (bySender : Bool) :
    ∀ e ∈ closingEvents id s amount bySender, e.qualifies = false := by
  intro e he
  cases bySender with
  | true | false =>
      rw [List.mem_singleton.mp he]
      rfl

theorem withdrawalEvents_plain (w : World) (single : Bool) (id : StreamId) (s : Stream) (claim : Int) (now : Nat)
    (out : Option Stream) : ∀ e ∈ withdrawalEvents w single id s claim now out, e.qualifies = false := by
  intro e he
  simp only [withdrawalEvents, List.mem_append] at he
  rcases he with (he | he) | he
  · split at he
    · obtain ⟨a, rfl⟩ := mem_feeEvents he
      rfl
    · exact absurd he List.not_mem_nil
  · rcases mem_settlementEvents he with rfl | rfl <;> rfl
  · rw [List.mem_singleton.mp he]
    rfl

theorem createStream_reports {a : CreateArgs} {newId : StreamId}
    (h : Emitting.createStream a env (w, l) = .ok newId (w', l')) : Told env single (w.awake env.now, l) (w', l') := by
  obtain ⟨-, -, fees, hc, rfl⟩ := createStream_ok (Erases.ok (y := Contract.createStream a) h)
  obtain ⟨fees', hfees, rfl⟩ := createStream_told h
  obtain rfl := Option.some.inj (hfees.symm.trans hc.fees_eq)
  let w₁ := (w.awake env.now).withBook (w.book.markNonce a.sender a.nonce.val)
  have hmark : Reported env single [] (w.awake env.now) w₁ := (Report.nonceMarked a.sender a.nonce.val).silent
  have hopen : Report env single w₁ _ _ _ _ := .opened _ _ _ hc.opening hc.free hc.room (creationFees_payer hc.fees_eq)
  have hreports : Reports env single ([] ++ creationEvents (createdStream host a env.now) fees') (w.awake env.now) _ :=
    .head ⟨hmark, by simp⟩ (.single ⟨hopen.reported, creationEvents_plain _ _⟩)
  exact ⟨_, rfl, hreports⟩

theorem batchItems_reports {a : BatchArgs} {entries : List (BatchItem × StreamId)} {ids : List StreamId}
    (hauth : env.auths a.sender = true) (hlong : 0 < a.durationSeconds.val)
    (hfits : env.now + a.durationSeconds.val ≤ u64Max) (hdistinct : (entries.map Prod.snd).Nodup)
    (hfree : ∀ e ∈ entries, w.book.streams.lookup e.2 = none)
    (hitems : ∀ e ∈ entries, Affordable e.1 a.durationSeconds.val)
    (h : each (Emitting.batchCreateItem a env.now (env.now + a.durationSeconds.val)) entries env (w, l) =
      .ok ids (w', l')) : Told env single (w, l) (w', l') := by
  induction entries generalizing w l ids with
  | nil =>
      obtain ⟨-, heq⟩ := each_nil.mp h
      exact heq ▸ Told.refl _
  | cons entry entries ih =>
      obtain ⟨newId, ⟨w₁, l₁⟩, rest, hitem, hrest, rfl⟩ := each_cons.mp h
      obtain ⟨-, -, hroom, rfl⟩ :=
        batchCreateItem_ok (Erases.ok (y := Contract.batchCreateItem a env.now _ entry) hitem)
      obtain rfl := batchCreateItem_told hitem
      obtain ⟨hnew, hdistinct⟩ := List.nodup_cons.mp hdistinct
      have hopen := batchedStream_opening hauth (hitems entry (by simp)) hlong hfits
      have hreport : Reported env single _ w _ :=
        (Report.opened (w := w) _ _ [] hopen (hfree entry (by simp)) hroom (by simp)).reported
      have hstill : ∀ e ∈ entries,
          (w.book.add (batchedStream a env.now entry)).streams.lookup e.2 = none := by
        intro e he
        have hne : e.2 ≠ entry.2 := fun heq => hnew (heq ▸ List.mem_map_of_mem he)
        exact (Finmap.lookup_insert_of_ne _ hne).trans (hfree e (by simp [he]))
      have hfirst : Told env single (w, l) ((w.pay [lockTransfer host (batchedStream a env.now entry)]).withBook
          (w.book.add (batchedStream a env.now entry)), l ++ creationEvents (batchedStream a env.now entry) []) :=
        ⟨_, rfl, .single ⟨hreport, creationEvents_plain _ _⟩⟩
      exact hfirst.trans (ih hdistinct hstill (fun e he => hitems e (by simp [he])) hrest)

theorem batchCreateStream_reports {a : BatchArgs} {ids : List StreamId}
    (h : Emitting.batchCreateStream a env (w, l) = .ok ids (w', l')) :
    Told env single (w.awake env.now, l) (w', l') := by
  obtain ⟨-, hb, -⟩ := batchCreateStream_ok (Erases.ok (y := Contract.batchCreateStream a) h)
  have hitems := batchCreateStream_told h
  let w₁ := (w.awake env.now).withBook (w.book.countBatch a.sender (a.nonce.val + 1))
  have hcount : Reported env single [] (w.awake env.now) w₁ := (Report.batchCounted a.sender (a.nonce.val + 1)).silent
  have hfirst : Told env single (w.awake env.now, l) (w₁, l) :=
    ⟨[], (List.append_nil l).symm, .single ⟨hcount, by simp⟩⟩
  have hfree : ∀ e ∈ batchEntries host a env.now, w₁.book.streams.lookup e.2 = none := hb.free
  exact hfirst.trans (batchItems_reports hb.signed hb.long hb.fits hb.distinct hfree hb.affordable hitems)

theorem batchWithdraw_reports {ids : List StreamId} {recipient : Address} {claims : List Int}
    (h : Emitting.batchWithdraw ids recipient env (w, l) = .ok claims (w', l')) :
    Told env false (w.awake env.now, l) (w', l') := by
  simp only [Emitting.batchWithdraw, quietly_bind_ok, requireRunning_ok, requireAuth_ok, and_assoc, exists_and_left,
    exists_eq_left', exists_const] at h
  obtain ⟨-, hauth, hitems⟩ := h
  refine each_rel (Told env false) Told.refl Told.trans ?_ hitems
  rintro id - ⟨w, l⟩ claim ⟨w', l'⟩ h
  obtain ⟨s, w₁, out, us, hw, rfl, rfl⟩ := batchWithdrawItem_reported hauth h
  exact ⟨_, rfl, .single ⟨withdrawal_reported hw, withdrawalEvents_plain w false id s claim env.now out⟩⟩

theorem batchCancelItem_reports {sender : Address} {result : Except StreamError Unit}
    (h : attempt (Emitting.batchCancelItem sender id) env (w, l) = .ok result (w', l')) :
    Told env single (w, l) (w', l') := by
  rcases attempt_ok.mp h with ⟨u, h, -⟩ | ⟨e, h, -⟩
  · simp only [Emitting.batchCancelItem, timestamp, ask, quietly_bind_ok, quietly_read_bind, okOr_bind_ok,
      failIf_bind_ok, not_not, payOutAndClose_ok, publish_ok, Prod.mk.injEq, and_assoc, exists_and_left,
      exists_eq_left', exists_const] at h
    obtain ⟨s, hs, -, hlive, amount, hearned, hcov, rfl, rfl⟩ := h
    exact ⟨_, rfl, .single ⟨closed_reported true hs hlive (.inl hearned) hcov, closingEvents_plain id s amount true⟩⟩
  · obtain ⟨rfl, rfl⟩ := batchCancelItem_err_told h
    exact Told.refl _

theorem batchCancelStream_reports {ids : List StreamId} {sender : Address} {results : List (Except StreamError Unit)}
    (h : Emitting.batchCancelStream ids sender env (w, l) = .ok results (w', l')) :
    Told env single (w, l) (w', l') := by
  simp only [Emitting.batchCancelStream, quietly_bind_ok, requireAuth_ok, failIf_bind_ok, and_assoc, exists_and_left,
    exists_eq_left', exists_const] at h
  obtain ⟨-, -, hitems⟩ := h
  refine each_rel (Told env single) Told.refl Told.trans ?_ hitems
  rintro id - ⟨w, l⟩ claim ⟨w', l'⟩ h
  exact batchCancelItem_reports h

/-- A call makes one change and tells it, or makes changes whose events speak for themselves,
perhaps after a pause that ran out was cleared. -/
def CallReported (env : Env host) (single : Bool) (es : List Published) (w w' : World) : Prop :=
  ∃ v, (v = w ∨ v = w.awake env.now) ∧ (Reported env single es v w' ∨ Reports env single es v w')

theorem reported_frame {es : List Published} (h : Reported env single es w w') :
    w'.config = w.config ∧ w'.audit = w.audit := by
  obtain ⟨made, b, ts, w₁, -, hmoved, rfl⟩ := h
  exact ⟨hmoved.config, hmoved.audit⟩

/-- The streams' calls leave the configuration and the audit log alone. -/
theorem CallReported.frame {es : List Published} (h : CallReported env single es w w') :
    w'.config = w.config ∧ w'.audit = w.audit := by
  obtain ⟨v, hv, h⟩ := h
  have hsame : v.config = w.config ∧ v.audit = w.audit := by
    rcases hv with rfl | rfl
    · exact ⟨rfl, rfl⟩
    · exact ⟨rfl, rfl⟩
  rw [← hsame.1, ← hsame.2]
  rcases h with h | h
  · exact reported_frame h
  · refine h.inv (fun w' => w'.config = v.config ∧ w'.audit = v.audit) ?_ ⟨rfl, rfl⟩
    intro es w₁ w₂ hstep hw
    have hlast := reported_frame hstep.1
    exact ⟨hlast.1.trans hw.1, hlast.2.trans hw.2⟩

theorem callReported_of_one {v : World} (hv : v = w ∨ v = w.awake env.now)
    (h : ∃ es, l' = l ++ es ∧ Reported env single es v w') : ∃ es, l' = l ++ es ∧ CallReported env single es w w' := by
  obtain ⟨es, hes, h⟩ := h
  exact ⟨es, hes, v, hv, .inl h⟩

theorem callReported_of_told {v : World} (hv : v = w ∨ v = w.awake env.now) (h : Told env single (v, l) (w', l')) :
    ∃ es, l' = l ++ es ∧ CallReported env single es w w' := by
  obtain ⟨es, hes, h⟩ := h
  exact ⟨es, hes, v, hv, .inr h⟩

def StreamCall.isSingle : StreamCall → Bool
  | .batchWithdraw .. => false
  | _ => true

/-- A successful stream call adds to the journal what it reports. -/
theorem streamCall_reports {c : StreamCall} {ids : List StreamId} (h : c.emit env (w, l) = .ok ids (w', l')) :
    ∃ es, l' = l ++ es ∧ CallReported env c.isSingle es w w' := by
  cases c with
  | createStream a =>
      obtain ⟨newId, _, h, -, rfl⟩ := bind_ok.mp h
      exact callReported_of_told (.inr rfl) (createStream_reports h)
  | batchCreateStream a => exact callReported_of_told (.inr rfl) (batchCreateStream_reports h)
  | partialCancelStream id caller cancelAmount =>
      obtain ⟨newId, _, h, -, rfl⟩ := bind_ok.mp h
      exact callReported_of_one (.inl rfl) (partialCancelStream_reported h)
  | withdraw id recipient =>
      obtain ⟨_, _, h, -, rfl⟩ := bind_ok.mp h
      exact callReported_of_one (.inr rfl) (withdraw_reported h)
  | batchWithdraw ids recipient =>
      obtain ⟨_, _, h, -, rfl⟩ := bind_ok.mp h
      exact callReported_of_told (.inr rfl) (batchWithdraw_reports h)
  | cancelStream id caller =>
      obtain ⟨_, _, h, -, rfl⟩ := bind_ok.mp h
      exact callReported_of_one (.inl rfl) (cancelStream_reported h)
  | batchCancelStream ids sender =>
      obtain ⟨_, _, h, -, rfl⟩ := bind_ok.mp h
      exact callReported_of_told (.inl rfl) (batchCancelStream_reports h)
  | recipientTerminate id recipient =>
      obtain ⟨_, _, h, -, rfl⟩ := bind_ok.mp h
      exact callReported_of_one (.inr rfl) (recipientTerminate_reported h)
  | transferRecipient id current recipient =>
      obtain ⟨_, _, h, -, rfl⟩ := bind_ok.mp h
      exact callReported_of_one (.inr rfl) (transferRecipient_reported h)
  | topUp id caller token amount =>
      obtain ⟨_, _, h, -, rfl⟩ := bind_ok.mp h
      exact callReported_of_one (.inr rfl) (topUp_reported h)
  | pauseStream id sender =>
      obtain ⟨_, _, h, -, rfl⟩ := bind_ok.mp h
      exact callReported_of_one (.inr rfl) (pauseStream_reported h)
  | resumeStream id sender =>
      obtain ⟨_, _, h, -, rfl⟩ := bind_ok.mp h
      exact callReported_of_one (.inr rfl) (resumeStream_reported h)
  | archiveStream id caller =>
      obtain ⟨_, _, h, -, rfl⟩ := bind_ok.mp h
      exact callReported_of_one (.inl rfl) (archiveStream_reported h)
  | updateMetadata sender id metadata =>
      obtain ⟨_, _, h, -, rfl⟩ := bind_ok.mp h
      exact callReported_of_one (.inl rfl) (updateMetadata_reported h)
  | cancelAutoRenew sender id =>
      obtain ⟨_, _, h, -, rfl⟩ := bind_ok.mp h
      exact callReported_of_one (.inl rfl) (cancelAutoRenew_reported h)
  | delegate sender id operator =>
      obtain ⟨h, rfl⟩ := quietly_ok.mp h
      obtain ⟨_, _, h, -, rfl⟩ := bind_ok.mp h
      obtain ⟨s, hs, -, hauth, (rfl : _ = w')⟩ := delegate_ok h
      have hreport : Reported env true [] w _ := (Report.delegated id s (some operator) hs hauth).silent
      exact callReported_of_one (.inl rfl) ⟨[], (List.append_nil l).symm, hreport⟩
  | revokeDelegate sender id =>
      obtain ⟨h, rfl⟩ := quietly_ok.mp h
      obtain ⟨_, _, h, -, rfl⟩ := bind_ok.mp h
      obtain ⟨s, hs, -, hauth, (rfl : _ = w')⟩ := revokeDelegate_ok h
      have hreport : Reported env true [] w _ := (Report.delegated id s none hs hauth).silent
      exact callReported_of_one (.inl rfl) ⟨[], (List.append_nil l).symm, hreport⟩

end SoroStream
