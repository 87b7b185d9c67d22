import SoroStream.Entries
import SoroStream.Flows
import SoroStream.Splitting
import SoroStream.Terminal

namespace SoroStream

open Lib Lib.Rollback Lib.Rollback.Prog Lib.Runs Contract

variable {host : Host} {env : Env host} {w w' : World} {c c' : Chain} {id : StreamId} {s : Stream} {u : Unit}
  {caller : Address} {now : Nat} {events : List (Event host)} {e : Event host}

def Stream.scheduled (s : Stream) : Int := s.flowRate * ((s.endTime : Int) - s.startTime)

def Stream.PaidUp (s : Stream) : Prop := s.totalWithdrawn = s.scheduled

instance (s : Stream) : Decidable s.PaidUp := inferInstanceAs (Decidable (_ = _))

instance (s : Stream) : Decidable s.Terminal := inferInstanceAs (Decidable (_ ∨ _))

theorem Accounted.withdrawn_le_scheduled (h : Accounted now s) : s.totalWithdrawn ≤ s.scheduled := by
  have hflow := h.flowed_le 0
  have hnonneg := flowed_nonneg h.rate 0
  simp only [Stream.scheduled]
  omega

theorem Sound.settled_iff (h : Sound now s) :
    s.deposit ≤ saturatingAddI128 s.totalWithdrawn (dustOf s) ↔ s.PaidUp := by
  have hle := h.withdrawn_le_scheduled
  have hnonneg := h.withdrawn_nonneg
  have hmax := h.deposit_max
  have hfund : s.scheduled ≤ s.deposit := h.funded
  have hmin : i128Min ≤ 0 := by decide
  have hsum : saturatingAddI128 s.totalWithdrawn (s.deposit - s.scheduled) =
      s.totalWithdrawn + (s.deposit - s.scheduled) :=
    Checked.clamp_of_mem (by omega) (by omega)
  rw [dustOf_eq h, ← Stream.scheduled, hsum, Stream.PaidUp]
  omega

theorem archiveStream_iff (hw : Accounts now w.book.streams) :
    archiveStream id caller env w = .ok u w' ↔ env.auths caller = true ∧ ∃ s, w.book.streams.lookup id = some s ∧
      (caller = s.sender ∨ caller = s.recipient) ∧ s.PaidUp ∧
      w.withBook ((w.book.close id s).setDelegate id none) = w' := by
  constructor
  · intro h
    obtain ⟨hauth, r, hr, hparty⟩ := archiveStream_caller h
    obtain ⟨s, ha, rfl⟩ := archiveStream_ok h
    obtain rfl := Option.some.inj (hr.symm.trans ha.stored)
    exact ⟨hauth, r, hr, hparty, (hw id r hr).2.settled_iff.mp ha.paidOut, rfl⟩
  · rintro ⟨hauth, s, hs, hparty, hpaid, rfl⟩
    have hsettled := (hw id s hs).2.settled_iff.mpr hpaid
    have hcaller : ¬(s.sender ≠ caller ∧ s.recipient ≠ caller) := by
      rintro ⟨hsender, hrecipient⟩
      exact hparty.elim (fun h => hsender h.symm) fun h => hrecipient h.symm
    simp only [archiveStream, ask, bind_ok, requireAuth_ok, read_ok, okOr_ok, failIf_ok, not_lt, closeStream_ok, ite_ok,
      pure_ok, Storage.removeDelegate, setBook, update_ok, and_assoc, exists_and_left, exists_eq_left', exists_const]
    refine ⟨hauth, s, hs, hcaller, hsettled, ?_⟩
    by_cases hdel : (Storage.getDelegate id (w.withBook (w.book.close id s))).isSome
    · exact .inl ⟨hdel, rfl⟩
    · refine .inr ⟨hdel, trivial, ?_⟩
      have hnone : w.book.delegates id = none := by
        simpa [Storage.getDelegate, Book.close] using hdel
      have hsame : Function.update w.book.delegates id none = w.book.delegates :=
        Function.update_eq_self_iff.mpr hnone.symm
      simp only [Book.setDelegate, Book.close, hsame]

def Chain.archived (c : Chain) : Event host → Option Stream
  | .call env (.stream (.archiveStream id caller)) =>
      if (archiveStream id caller env c.world).value?.isSome then c.world.book.streams.lookup id else none
  | _ => none

theorem archived_paidUp (hw : Accounts now c.world.book.streams) (hs : c.archived e = some s) :
    s.PaidUp ∧ Accounted now s := by
  cases e with
  | treasury | tokens => cases hs
  | call env call =>
      cases call with
      | config | view => cases hs
      | stream call =>
          cases call with
          | archiveStream id caller =>
              simp only [Chain.archived] at hs
              split at hs
              · next hok =>
                  obtain ⟨_, hv⟩ := Option.isSome_iff_exists.mp hok
                  obtain ⟨w', hrun⟩ := Outcome.value?_eq_some.mp hv
                  obtain ⟨-, r, hr, -, hpaid, -⟩ := (archiveStream_iff hw).mp hrun
                  obtain rfl := Option.some.inj (hs.symm.trans hr)
                  exact ⟨hpaid, (hw id s hr).2.toAccounted⟩
              · cases hs
          | _ => cases hs

/-- What an archived record still holds is the dust of its schedule, and that is nothing,
or of no use to anybody, exactly when the schedule has no dust or the stream was done with. -/
theorem archive_discards_nothing_iff (hfresh : Fresh host c) (hrun : SystemRun host c events c') :
    (∀ es e es', events = es ++ e :: es' → ∀ s ∈ (c.after es).archived e, s.remaining = s.deposit - s.scheduled) ∧
    (Throughout Chain.step (fun c e => ∀ s ∈ Chain.archived c e, s.Terminal ∨ s.totalWithdrawn = s.deposit) c events ↔
      Throughout Chain.step (fun c e => ∀ s ∈ Chain.archived c e, s.Terminal ∨ s.scheduled = s.deposit) c events) := by
  constructor
  · rintro es e es' rfl s hs
    have hreached : Reached host (c.after es) := ⟨c, es, hfresh, hrun.left⟩
    obtain ⟨hpaid, -⟩ := archived_paidUp (reached_accounts hreached) hs
    rw [Stream.remaining, hpaid]
  · refine hrun.throughout_congr ?_
    intro es c' e hr _
    have hw := reached_accounts (⟨c, es, hfresh, hr⟩ : Reached host c')
    refine forall₂_congr fun s hs => ?_
    obtain ⟨hpaid, -⟩ := archived_paidUp hw hs
    rw [hpaid]

namespace Sample

def passingOn (time : U64) : Event site := call [3] time (.transferRecipient streamId (party 3) (party 4))

def takenOver : List (Event site) := [opening 0 0, passingOn 4010, call [4] 4020 (.archiveStream streamId (party 4))]

def uneven : Chain :=
  genesis.after [call [2] 10 (.createStream { terms 0 0 with amount := ⟨100003, by decide⟩ }), passingOn 4010]

def archiving : Event site := call [4] 4020 (.archiveStream streamId (party 4))

end Sample

theorem sample_archive_discards_nothing :
    (∀ es e es', Sample.takenOver = es ++ e :: es' → ∀ s ∈ (Sample.genesis.after es).archived e,
      s.remaining = s.deposit - s.scheduled) ∧
    (Throughout Chain.step (fun c e => ∀ s ∈ Chain.archived c e, s.Terminal ∨ s.totalWithdrawn = s.deposit)
        Sample.genesis Sample.takenOver ↔
      Throughout Chain.step (fun c e => ∀ s ∈ Chain.archived c e, s.Terminal ∨ s.scheduled = s.deposit)
        Sample.genesis Sample.takenOver) :=
  archive_discards_nothing_iff Sample.genesis_fresh (run_of_inOrder (by decide))

/-- The new recipient archives the running stream, and the three that the sender could have
had back by cancelling it stay in the contract without a record. -/
theorem archive_discards_dust :
    Reached Sample.site Sample.uneven ∧
    (Sample.uneven.archived Sample.archiving).map (fun s => (s.status, s.totalWithdrawn, s.deposit)) =
      some (.active, 100000, 100003) ∧
    (Sample.uneven.step Sample.archiving).world.book.streams.lookup Sample.streamId = none ∧
    (Sample.uneven.step Sample.archiving).world.balances (Sample.party 9) (Sample.party 0) = 3 ∧
    (Sample.uneven.step (Sample.call [2] 4020 (.cancelStream Sample.streamId (Sample.party 2)))).world.balances
      (Sample.party 9) (Sample.party 2) = Sample.uneven.world.balances (Sample.party 9) (Sample.party 2) + 3 ∧
    ¬∀ (c : Chain) (e : Event Sample.site), Reached Sample.site c → May c e →
      ∀ s ∈ c.archived e, s.Terminal ∨ s.totalWithdrawn = s.deposit := by
  have hreached : Reached Sample.site Sample.uneven := reached_after Sample.genesis_fresh (by decide)
  refine ⟨hreached, by decide +kernel, by decide +kernel, by decide +kernel, by decide +kernel, ?_⟩
  intro hall
  have hlost : ¬∀ s ∈ Sample.uneven.archived Sample.archiving, s.Terminal ∨ s.totalWithdrawn = s.deposit := by
    decide +kernel
  exact hlost (hall Sample.uneven Sample.archiving hreached ⟨by decide, trivial⟩)

end SoroStream
