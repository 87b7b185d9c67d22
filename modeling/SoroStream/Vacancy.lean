import SoroStream.Entries
import SoroStream.Lib.Occupancy

namespace SoroStream

open Lib Lib.Rollback Lib.Rollback.Prog Lib.Runs Contract

variable {host : Host} {env : Env host} {w w' : World} {c : Chain} {id : StreamId} {s : Stream} {b : Book}
  {made : List Stream}

/-- The recipients' indexes together have no more entries than the global one, whose counter
has not run out. -/
def Spacious (b : Book) : Prop := Within b.recipients b.globalIndex.size ∧ b.globalIndex.size ≤ u32Max

namespace Spacious

theorem add (h : Spacious b) (hroom : b.RoomFor s) : Spacious (b.add s) := ⟨h.1.push s.recipient s.id, hroom.2.2⟩

theorem close (h : Spacious b) (id : StreamId) (s : Stream) :
    Spacious (b.close id s) :=
  ⟨h.1.remove s.recipient 0 id, h.2⟩

/-- The recipient's array without the entry of the stream leaves a place free. -/
theorem dropped (h : Spacious b) (hx : Entries b) (hs : b.streams.lookup id = some s) :
    ∃ n, n + 1 = b.globalIndex.size ∧
      Within (Function.update b.recipients s.recipient (Storage.unindex (b.recipients s.recipient) id)) n := by
  obtain ⟨l, hl, hperm⟩ := hx.recipients.removed hs 0
  obtain ⟨l', hl'⟩ := hx.recipients.whole s.recipient
  have hmem : id ∈ (b.recipients s.recipient).toList := hx.recipients.entry id s hs
  have hlength := hperm.length_eq
  rw [List.length_erase_of_mem hmem, ← hl.1, hl'.toList_eq, ← hl'.1] at hlength
  have hpos : 0 < (b.recipients s.recipient).size := by
    rw [hl'.1, ← hl'.toList_eq]
    exact List.length_pos_of_mem hmem
  have hle := h.1.size_le s.recipient
  obtain ⟨n, hn⟩ : ∃ n, b.globalIndex.size = n + 1 := Nat.exists_eq_add_one.mpr (by omega)
  refine ⟨n, hn.symm, (hn ▸ h.1 : Within b.recipients (n + 1)).drop ?_⟩
  change (SlotArray.removeOr 0 (b.recipients s.recipient) id).size + 1 ≤ _
  omega

theorem handOver (h : Spacious b) (hx : Entries b) (hs : b.streams.lookup id = some s) (recipient : Address) :
    Spacious (b.handOver id s.recipient recipient) := by
  obtain ⟨n, hn, hdropped⟩ := h.dropped hx hs
  refine ⟨?_, h.2⟩
  have hpushed := hdropped.push recipient id
  rwa [hn] at hpushed

/-- There is always room for the ID of a stream that changes hands. -/
theorem room (h : Spacious b) (hx : Entries b) (hs : b.streams.lookup id = some s) (recipient : Address) :
    ((Function.update b.recipients s.recipient
      (Storage.unindex (b.recipients s.recipient) id)) recipient).size + 1 ≤ u32Max := by
  obtain ⟨n, hn, hdropped⟩ := h.dropped hx hs
  have hle := hdropped.size_le recipient
  have hmax := h.2
  omega

end Spacious

theorem action_spacious {ts : List Transfer} (h : Action env w made b ts) (hx : Entries w.book) (hv : Spacious w.book) :
    Spacious b := by
  cases h with
  | nonceMarked | batchCounted | delegated | toppedUp | paused | resumed | amended => exact hv
  | opened s duration fees h hfree hroom => exact hv.add hroom
  | withdrawn single id s claim w₁ out us h =>
      cases out with
      | none => exact hv.close id (s.checkpoint claim env.now)
      | some s' => exact hv
  | handedOver id s claim w₁ recipient h => exact hv.handOver hx h.stored recipient
  | closed id s => exact hv.close id s
  | archived id s h => exact hv.close id s
  | split id s cancelAmount earned streamed h =>
      have hcancelled : Spacious (w.book.save { s with status := .cancelled }) := hv
      exact hcancelled.add h.room

theorem reached_spacious (h : Reached host c) : Spacious c.world.book := by
  suffices hall : Accounts c.now c.world.book.streams ∧ Entries c.world.book ∧ Spacious c.world.book from hall.2.2
  refine reached_inv (fun now w => Accounts now w.book.streams ∧ Entries w.book ∧ Spacious w.book) ?_ ?_ ?_ h
  · intro c hc
    rw [hc.book]
    exact ⟨fun id s hs => by simp [Book.fresh] at hs, ⟨.empty, .empty⟩, .empty, Nat.zero_le _⟩
  · rintro now now' w w' hnow ha ⟨hw, hx, hv⟩
    rw [ha.book]
    exact ⟨hw.mono hnow, hx, hv⟩
  · rintro env made w w' hacted ⟨hw, hx, hv⟩
    have hx' := acted_entries hacted hw hx
    have hw' := acted_accounts hacted hw
    obtain ⟨b, ts, w₁, ha, -, rfl⟩ := hacted
    exact ⟨hw', hx', action_spacious ha hx hv⟩

end SoroStream
