import SoroStream.Accounting
import SoroStream.Lib.OwnerIndex

namespace SoroStream

open Lib Lib.Rollback Lib.Rollback.Prog Lib.Runs Contract

variable {host : Host} {env : Env host} {w w' : World} {c : Chain} {id : StreamId} {q s : Stream} {b : Book}
  {made : List Stream}

/-- Every stored stream has an entry in the index of its sender and in that of its
recipient, also where new records were stored over old ones. -/
structure Entries (b : Book) : Prop where
  senders : Entered Stream.sender b.senders b.streams
  recipients : Entered Stream.recipient b.recipients b.streams

namespace Entries

theorem save (h : Entries b) (hs : b.streams.lookup s.id = some s) (hid : q.id = s.id)
    (hsender : q.sender = s.sender) (hrecipient : q.recipient = s.recipient) : Entries (b.save q) := by
  refine ⟨?_, ?_⟩
  · exact h.senders.replace (hid ▸ hs) hsender
  · exact h.recipients.replace (hid ▸ hs) hrecipient

theorem add (h : Entries b) (s : Stream) : Entries (b.add s) := ⟨h.senders.insert _ s, h.recipients.insert _ s⟩

theorem close (h : Entries b) (hs : b.streams.lookup id = some s) : Entries (b.close id s) :=
  ⟨h.senders.erase hs 0, h.recipients.erase hs 0⟩

theorem handOver (h : Entries b) (hs : b.streams.lookup s.id = some s) (hid : q.id = s.id)
    (hsender : q.sender = s.sender) : Entries ((b.save q).handOver s.id s.recipient q.recipient) := by
  refine ⟨?_, ?_⟩
  · exact h.senders.replace (hid ▸ hs) hsender
  · have hmoved := h.recipients.move (q := q) hs 0
    rwa [← hid] at hmoved ⊢

end Entries

theorem action_entries {ts : List Transfer} (h : Action env w made b ts) (hw : Accounts env.now w.book.streams)
    (hx : Entries w.book) : Entries b := by
  cases h with
  | nonceMarked | batchCounted | delegated => exact ⟨hx.senders, hx.recipients⟩
  | opened s => exact hx.add s
  | withdrawn single id s claim w₁ out us h =>
      obtain ⟨rfl, -⟩ := hw id s h.stored
      have hset := h.settled
      cases hset with
      | running | renewed | lapsed => exact hx.save h.stored rfl rfl rfl
      | finished =>
          have hclosed : Entries (w.book.close s.id s) := hx.close h.stored
          exact hclosed
  | handedOver id s claim w₁ recipient h =>
      obtain ⟨rfl, -⟩ := hw id s h.stored
      have hid := advance_id s claim (s.clock env.now)
      exact hx.handOver (q := { s.advance claim _ with recipient := recipient }) h.stored hid
        (advance_sender s claim _)
  | closed id s t amount hs => exact hx.close hs
  | archived id s h =>
      obtain ⟨hsenders, hrecipients⟩ := hx.close h.stored
      exact ⟨hsenders, hrecipients⟩
  | split id s cancelAmount earned streamed h =>
      obtain ⟨rfl, -⟩ := hw id s h.stored
      have hcancelled : Entries (w.book.save { s with status := .cancelled }) :=
        hx.save (q := { s with status := .cancelled }) h.stored rfl rfl rfl
      exact hcancelled.add _
  | toppedUp id s caller amount h =>
      obtain ⟨rfl, -⟩ := hw id s h.stored
      exact hx.save (q := s.toppedUp _) h.stored rfl rfl rfl
  | paused id s hs =>
      obtain ⟨rfl, -⟩ := hw id s hs
      exact hx.save (q := { s with status := .paused, lastPauseTime := env.now }) hs rfl rfl rfl
  | resumed id s hs =>
      obtain ⟨rfl, -⟩ := hw id s hs
      exact hx.save (q := resumed s (env.now - s.lastPauseTime)) hs rfl rfl rfl
  | amended id s metadata autoRenew hs =>
      obtain ⟨rfl, -⟩ := hw id s hs
      exact hx.save (q := { s with metadata, autoRenew }) hs rfl rfl rfl

theorem acted_entries (h : Acted env made w w') (hw : Accounts env.now w.book.streams) (hx : Entries w.book) :
    Entries w'.book := by
  obtain ⟨b, ts, w₁, ha, -, rfl⟩ := h
  exact action_entries ha hw hx

theorem reached_entries (h : Reached host c) : Entries c.world.book := by
  suffices hboth : Accounts c.now c.world.book.streams ∧ Entries c.world.book from hboth.2
  refine reached_inv (fun now w => Accounts now w.book.streams ∧ Entries w.book) ?_ ?_ ?_ h
  · intro c hc
    rw [hc.book]
    exact ⟨fun id s hs => by simp [Book.fresh] at hs, .empty, .empty⟩
  · rintro now now' w w' hnow ha ⟨hw, hx⟩
    rw [ha.book]
    exact ⟨hw.mono hnow, hx⟩
  · rintro env made w w' ha ⟨hw, hx⟩
    exact ⟨acted_accounts ha hw, acted_entries ha hw hx⟩

end SoroStream
