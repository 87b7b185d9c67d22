import SoroStream.Indexes
import SoroStream.Apart

namespace SoroStream

open Lib Lib.Rollback Lib.Rollback.Prog Lib.Runs Contract

variable {host : Host} {env : Env host} {w w' : World} {c c' : Chain} {id j : StreamId} {r s s' : Stream}
  {e : Event host} {events : List (Event host)}

def Stream.Terminal (s : Stream) : Prop := s.status = .cancelled ∨ s.status = .completed

theorem Stream.Terminal.not_active (h : s.Terminal) : s.status ≠ .active := by
  rcases h with h | h
  · simp [h]
  · simp [h]

theorem Stream.Terminal.not_paused (h : s.Terminal) : s.status ≠ .paused := by
  rcases h with h | h
  · simp [h]
  · simp [h]

theorem Stream.Terminal.not_live (h : s.Terminal) : ¬s.Live := by
  rintro (hactive | hpaused)
  · exact h.not_active hactive
  · exact h.not_paused hpaused

def Stream.SameTerms (s s' : Stream) : Prop := s' = { s with metadata := s'.metadata, autoRenew := s'.autoRenew }

theorem Stream.SameTerms.refl (s : Stream) : s.SameTerms s := rfl

theorem Stream.SameTerms.amend (h : s.SameTerms s') (metadata : List UInt8) (autoRenew : Bool) :
    s.SameTerms { s' with metadata, autoRenew } := by
  rw [Stream.SameTerms] at h ⊢
  rw [h]

theorem Stream.SameTerms.terminal (h : s.SameTerms s') (hterm : s.Terminal) : s'.Terminal := by
  rw [h]
  exact hterm

/-- The calls that may still concern such a record: two updates, which the sender
signs, and the archiving, which either participant may ask for. -/
inductive Retouch (env : Env host) (w w' : World) (id : StreamId) (s : Stream) : StreamCall → Prop
  | updated (metadata : List UInt8) (hauth : env.auths s.sender = true) (hlog : w'.log = w.log)
      (hrecord : w'.book.streams.lookup id = some { s with metadata }) :
      Retouch env w w' id s (.updateMetadata s.sender id metadata)
  | renewalStopped (hauth : env.auths s.sender = true) (hlog : w'.log = w.log)
      (hrecord : w'.book.streams.lookup id = some { s with autoRenew := false }) :
      Retouch env w w' id s (.cancelAutoRenew s.sender id)
  | archived (caller : Address) (hok : archiveStream id caller env w = .ok () w') (hauth : env.auths caller = true)
      (hparty : caller = s.sender ∨ caller = s.recipient) (hlog : w'.log = w.log)
      (hgone : w'.book.streams.lookup id = none) :
      Retouch env w w' id s (.archiveStream id caller)

theorem archiveStream_caller {caller : Address} {u : Unit} (h : archiveStream id caller env w = .ok u w') :
    env.auths caller = true ∧ ∃ s, w.book.streams.lookup id = some s ∧ (caller = s.sender ∨ caller = s.recipient) := by
  simp only [archiveStream, ask, bind_ok, requireAuth_ok, read_ok, okOr_ok, failIf_ok, not_and, not_not, and_assoc,
    exists_and_left, exists_eq_left', exists_const] at h
  obtain ⟨hauth, s, hs, hcaller, -⟩ := h
  refine ⟨hauth, s, hs, ?_⟩
  by_cases hsender : s.sender = caller
  · exact .inl hsender.symm
  · exact .inr (hcaller hsender).symm

theorem streamCall_idle_or_retouch (hw : Accounts env.now w.book.streams) (hs : w.book.streams.lookup id = some s)
    (hterm : s.Terminal) {call : StreamCall} {made : List StreamId}
    (hnew : ∀ i ∈ made, w.book.streams.lookup i = none) (h : call.exec env w = .ok made w') :
    Idle id w w' ∨ Retouch env w w' id s call := by
  have hs' : (w.awake env.now).book.streams.lookup id = some s := hs
  have hmade : id ∉ made := fun hmem => Option.some_ne_none s (hs.symm.trans (hnew id hmem))
  by_cases htarget : id ∉ call.targets
  · exact .inl (streamCall_idle hw hs htarget hmade h)
  -- of the calls about the record most have a guard that it does not pass
  rw [not_not] at htarget
  have hguard : ∀ {j r}, id ∈ [j] → w.book.streams.lookup j = some r → ¬r.Live := by
    intro j r hmem hr
    obtain rfl := List.mem_singleton.mp hmem
    obtain rfl := Option.some.inj (hs.symm.trans hr)
    exact hterm.not_live
  cases call with
  | createStream | batchCreateStream => exact absurd htarget List.not_mem_nil
  | withdraw j recipient =>
      obtain ⟨_, _, h, -, rfl⟩ := bind_ok.mp h
      obtain ⟨-, r, claim, w₁, out, us, -, hwd, -⟩ := withdraw_ok h
      exact absurd (.inl hwd.active) (hguard htarget hwd.stored)
  | batchWithdraw ids recipient =>
      obtain ⟨_, _, h, -, rfl⟩ := bind_ok.mp h
      obtain ⟨-, hauth, hitems⟩ := batchWithdraw_ok h
      refine .inl (Idle.of_awake (batchWithdraw_idle hauth hw ?_ hitems))
      intro _ v claim v' hbefore hitem
      obtain ⟨r, w₁, out, us, -, hwd, rfl⟩ := batchWithdrawItem_ok hauth hitem
      obtain rfl := Option.some.inj (hs'.symm.trans (hbefore.record.symm.trans hwd.stored))
      exact absurd hwd.active hterm.not_active
  | cancelStream j caller =>
      obtain ⟨_, _, h, -, rfl⟩ := bind_ok.mp h
      obtain ⟨-, r, amount, hr, -, hlive, -⟩ := cancelStream_ok.mp h
      exact absurd hlive (hguard htarget hr)
  | batchCancelStream ids sender =>
      obtain ⟨_, _, h, -, rfl⟩ := bind_ok.mp h
      exact .inl (batchCancelStream_idle hw hs (fun _ _ => hterm.not_live) h)
  | recipientTerminate j recipient =>
      obtain ⟨_, _, h, -, rfl⟩ := bind_ok.mp h
      obtain ⟨-, -, r, amount, hr, -, -, hlive, -⟩ := recipientTerminate_ok.mp h
      exact absurd hlive (hguard htarget hr)
  | transferRecipient j current recipient =>
      obtain ⟨_, _, h, -, rfl⟩ := bind_ok.mp h
      obtain ⟨-, r, claim, w₁, -, hh, -⟩ := transferRecipient_ok h
      exact absurd hh.live (hguard htarget hh.stored)
  | partialCancelStream j caller cancelAmount =>
      obtain ⟨newId, _, h, -, rfl⟩ := bind_ok.mp h
      obtain ⟨-, r, earned, streamed, -, -, hsplit, -⟩ := partialCancelStream_ok h
      exact absurd hsplit.live (hguard htarget hsplit.stored)
  | topUp j caller token amount =>
      obtain ⟨_, _, h, -, rfl⟩ := bind_ok.mp h
      obtain ⟨-, r, -, ht, -⟩ := topUp_ok h
      exact absurd ht.live (hguard htarget ht.stored)
  | pauseStream j sender =>
      obtain ⟨_, _, h, -, rfl⟩ := bind_ok.mp h
      obtain ⟨-, r, hr, -, -, hactive, -⟩ := pauseStream_ok h
      exact absurd (.inl hactive) (hguard htarget hr)
  | resumeStream j sender =>
      obtain ⟨_, _, h, -, rfl⟩ := bind_ok.mp h
      obtain ⟨-, r, hr, -, -, hpaused, -⟩ := resumeStream_ok h
      exact absurd (.inr hpaused) (hguard htarget hr)
  | archiveStream j caller =>
      obtain ⟨_, _, h, -, rfl⟩ := bind_ok.mp h
      obtain rfl := List.mem_singleton.mp htarget
      obtain ⟨hauth, r, hr, hparty⟩ := archiveStream_caller h
      obtain rfl := Option.some.inj (hs.symm.trans hr)
      have hok := h
      obtain ⟨_, _, rfl⟩ := archiveStream_ok h
      exact .inr (.archived caller hok hauth hparty rfl (Finmap.lookup_erase id w.book.streams))
  | delegate sender j operator =>
      obtain ⟨_, _, h, -, rfl⟩ := bind_ok.mp h
      obtain ⟨r, -, -, -, rfl⟩ := delegate_ok h
      exact .inl ⟨rfl, [], by simp, by simp⟩
  | revokeDelegate sender j =>
      obtain ⟨_, _, h, -, rfl⟩ := bind_ok.mp h
      obtain ⟨r, -, -, -, rfl⟩ := revokeDelegate_ok h
      exact .inl ⟨rfl, [], by simp, by simp⟩
  | updateMetadata sender j metadata =>
      obtain rfl := List.mem_singleton.mp htarget
      obtain ⟨_, _, h, -, rfl⟩ := bind_ok.mp h
      obtain ⟨r, hr, rfl, hauth, -, rfl⟩ := updateMetadata_ok h
      obtain rfl := Option.some.inj (hs.symm.trans hr)
      refine .inr (.updated metadata hauth rfl ?_)
      rw [withBook_book, Book.save_streams, (hw id s hs).1, Finmap.lookup_insert]
  | cancelAutoRenew sender j =>
      obtain rfl := List.mem_singleton.mp htarget
      obtain ⟨_, _, h, -, rfl⟩ := bind_ok.mp h
      obtain ⟨r, hr, rfl, hauth, rfl⟩ := cancelAutoRenew_ok h
      obtain rfl := Option.some.inj (hs.symm.trans hr)
      refine .inr (.renewalStopped hauth rfl ?_)
      rw [withBook_book, Book.save_streams, (hw id s hs).1, Finmap.lookup_insert]

theorem Aside.idle (h : Aside host w w') : Idle id w w' := by
  obtain ⟨ts, hts, hpayout⟩ := h.log
  refine ⟨by rw [h.book], ts, hts, ?_⟩
  intro t ht
  rw [hpayout t ht]
  simp [Cause.stream?]

def Chain.Rests (c : Chain) (id : StreamId) (s : Stream) (e : Event host) : Prop :=
  Idle id c.world (c.step e).world ∨
    ∃ env call, e = .call env (.stream call) ∧ Retouch env c.world (c.step e).world id s call

def Chain.Archives (c : Chain) (id : StreamId) : Event host → Prop
  | .call env (.stream (.archiveStream i caller)) =>
      i = id ∧ (archiveStream i caller env c.world).value?.isSome = true
  | _ => False

theorem step_rests (hmay : MayAnew c e) (hw : Accounts c.now c.world.book.streams)
    (hs : c.world.book.streams.lookup id = some s) (hterm : s.Terminal) : c.Rests id s e := by
  rcases step_cases hmay.1 with ⟨-, haside⟩ | ⟨env, call, _, _, rfl, hok, -, -, -, -⟩
  · exact .inl haside.idle
  · rcases streamCall_idle_or_retouch (hw.mono hmay.1.1) hs hterm hmay.2 hok with hidle | htouch
    · exact .inl hidle
    · exact .inr ⟨env, call, rfl, htouch⟩

structure Frozen (id : StreamId) (s : Stream) (w w' : World) (s' : Stream) : Prop where
  stored : w'.book.streams.lookup id = some s'
  same : s.SameTerms s'
  log : ∃ ts, w'.log = w.log ++ ts ∧ ∀ t ∈ ts, t.cause.stream? ≠ some id

theorem Frozen.idle (h : Frozen id s w w' s') {w'' : World} (hidle : Idle id w' w'') : Frozen id s w w'' s' := by
  obtain ⟨ts, hts, hquiet⟩ := h.log
  obtain ⟨us, hus, hquiet'⟩ := hidle.log
  refine ⟨hidle.record.trans h.stored, h.same, ts ++ us, by rw [hus, hts, List.append_assoc], ?_⟩
  intro t ht
  rcases List.mem_append.mp ht with ht | ht
  · exact hquiet t ht
  · exact hquiet' t ht

theorem Frozen.amend (h : Frozen id s w w' s') {w'' : World} (metadata : List UInt8) (autoRenew : Bool)
    (hlog : w''.log = w'.log) (hrecord : w''.book.streams.lookup id = some { s' with metadata, autoRenew }) :
    Frozen id s w w'' { s' with metadata, autoRenew } :=
  ⟨hrecord, h.same.amend metadata autoRenew, hlog ▸ h.log⟩

/-- Until it is archived, a terminal record is only ever touched up. -/
theorem frozen_of_run (hreached : Reached host c) (hs : c.world.book.streams.lookup id = some s)
    (hterm : s.Terminal) (hrun : Run MayAnew Chain.step c events c') :
    Reached host c' ∧ (Throughout Chain.step (fun c e => ¬Chain.Archives c id e) c events →
      ∃ s', Frozen id s c.world c'.world s') := by
  refine hrun.trace_inv (fun events c' => Reached host c' ∧
    (Throughout Chain.step (fun c e => ¬Chain.Archives c id e) c events → ∃ s', Frozen id s c.world c'.world s')) ?_ ?_
  · exact ⟨hreached, fun _ => ⟨s, hs, .refl s, [], by simp, by simp⟩⟩
  · rintro es c' e hr ⟨hreached', ih⟩ hmay
    refine ⟨hreached'.next hmay.1, ?_⟩
    intro hkept
    obtain ⟨hkept, hstays⟩ := (hr.throughout_snoc e).mp hkept
    obtain ⟨s', hfrozen⟩ := ih hkept
    rcases step_rests hmay (reached_accounts hreached') hfrozen.stored (hfrozen.same.terminal hterm) with
      hidle | ⟨env, call, rfl, htouch⟩
    · exact ⟨s', hfrozen.idle hidle⟩
    · cases htouch with
      | updated metadata hauth hlog hrecord => exact ⟨_, hfrozen.amend metadata s'.autoRenew hlog hrecord⟩
      | renewalStopped hauth hlog hrecord => exact ⟨_, hfrozen.amend s'.metadata false hlog hrecord⟩
      | archived caller hok hauth hparty hlog hgone =>
          have harchives : c'.Archives id (.call env (.stream (.archiveStream id caller))) :=
            ⟨rfl, by rw [hok]; rfl⟩
          exact absurd harchives hstays

/-- Cancelled and completed streams are done with. -/
theorem terminal_absorbing (hreached : Reached host c) (hs : c.world.book.streams.lookup id = some s)
    (hterm : s.Terminal) (hrun : Run MayAnew Chain.step c events c')
    (hkept : Throughout Chain.step (fun c e => ¬Chain.Archives c id e) c events) (hmay : MayAnew c' e) :
    ∃ s', Frozen id s c.world c'.world s' ∧ c'.Rests id s' e := by
  obtain ⟨hreached', hfrozen⟩ := frozen_of_run hreached hs hterm hrun
  obtain ⟨s', hfrozen⟩ := hfrozen hkept
  exact ⟨s', hfrozen, step_rests hmay (reached_accounts hreached') hfrozen.stored (hfrozen.same.terminal hterm)⟩

namespace Sample

def halved : Chain := (genesis.step (opening 0 0)).step splitting

def relabelling : Event site := call [2] 30 (.updateMetadata (party 2) streamId [7])

def lateWithdrawal : Event site := call [3] 40 (.withdraw streamId (party 3))

end Sample

theorem sample_terminal_absorbing : ∃ s',
    Frozen Sample.streamId { createdStream Sample.site (Sample.terms 0 0) 10 with status := .cancelled }
      Sample.halved.world (Sample.halved.step Sample.relabelling).world s' ∧
    (Sample.halved.step Sample.relabelling).Rests Sample.streamId s' Sample.lateWithdrawal := by
  have horder : inOrder Sample.genesis.now [Sample.opening 0 0, Sample.splitting] = true := by decide
  have hreached : Reached Sample.site Sample.halved := reached_after Sample.genesis_fresh horder
  have hrun : Run MayAnew Chain.step Sample.halved [Sample.relabelling] (Sample.halved.step Sample.relabelling) :=
    .snoc .nil ⟨⟨by decide, trivial⟩, by decide +kernel⟩
  exact terminal_absorbing hreached (by decide +kernel) (.inl rfl) hrun ⟨fun h => h, trivial⟩
    ⟨⟨by decide, trivial⟩, by decide +kernel⟩

end SoroStream
