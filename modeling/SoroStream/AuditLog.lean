import SoroStream.Lib.RingBuffer
import SoroStream.Lib.Batch
import SoroStream.System

namespace SoroStream

open Lib Lib.Rollback Lib.Rollback.Prog Storage

variable {host : Host}

def AuditCells.ring (a : AuditCells) : RingBuffer AuditEntry := ⟨a.head.getD 0, a.len.getD 0, a.slot⟩

theorem readAuditLog_eq (w : World) : readAuditLog w = w.audit.ring.toList auditCap := rfl

theorem appendAuditEntry_pushes (entry : AuditEntry) (env : Env host) (w : World) :
    ∃ w', appendAuditEntry entry env w = .ok () w' ∧ w'.audit.ring = w.audit.ring.push auditCap entry :=
  ⟨_, rfl, rfl⟩

/-- A sequence of appends always runs, and it adds its entries to those the ring has seen. -/
theorem appendAuditEntries_recent (env : Env host) (entries : List AuditEntry) {w : World} {seen : List AuditEntry}
    (h : w.audit.ring.Recent auditCap seen) :
    ∃ us w', each appendAuditEntry entries env w = .ok us w' ∧ w'.audit.ring.Recent auditCap (seen ++ entries) := by
  induction entries generalizing w seen with
  | nil => exact ⟨[], w, rfl, by simpa using h⟩
  | cons entry entries ih =>
      obtain ⟨w₁, hfirst, hring⟩ := appendAuditEntry_pushes entry env w
      have hpushed : w₁.audit.ring.Recent auditCap (seen ++ [entry]) := by
        rw [hring]
        exact h.push entry
      obtain ⟨us, w', hrest, hrecent⟩ := ih hpushed
      refine ⟨() :: us, w', each_cons.mpr ⟨(), w₁, us, hfirst, hrest, rfl⟩, ?_⟩
      rwa [List.append_assoc, List.singleton_append] at hrecent

/-- After any appends to an empty log, reading gives the last twenty of them, oldest first. The
index is computed without underflow, every slot read is there, and no slot is read twice. -/
theorem audit_log_sliding_window (env : Env host) (w : World) (hempty : w.audit = ⟨none, none, fun _ => none⟩)
    (entries : List AuditEntry) :
    ∃ us w', each appendAuditEntry entries env w = .ok us w' ∧
      readAuditLog w' = entries.drop (entries.length - auditCap) ∧
      (readAuditLog w').length = min entries.length auditCap ∧
      w'.audit.ring.len ≤ w'.audit.ring.head + auditCap ∧
      w'.audit.ring.head + auditCap + w'.audit.ring.len ≤ u32Max ∧
      (∀ i < w'.audit.ring.len, (w'.audit.slot (w'.audit.ring.index auditCap i)).isSome = true) ∧
      ((List.range w'.audit.ring.len).map (w'.audit.ring.index auditCap)).Nodup := by
  have hstart : w.audit.ring.Recent auditCap [] := by
    rw [hempty]
    exact RingBuffer.recent_nil _
  obtain ⟨us, w', hrun, hrecent⟩ := appendAuditEntries_recent env entries hstart
  rw [List.nil_append] at hrecent
  have hread : readAuditLog w' = entries.drop (entries.length - auditCap) := by
    rw [readAuditLog_eq]
    exact hrecent.toList
  have hlen := hrecent.len
  have hcap : w'.audit.ring.len ≤ auditCap := hrecent.len_le
  have hhead : w'.audit.ring.head < auditCap := by
    rw [hrecent.head]
    exact Nat.mod_lt _ (by decide)
  refine ⟨us, w', hrun, hread, ?_, ?_, ?_, ?_, hrecent.index_nodup⟩
  · rw [hread, List.length_drop]
    omega
  · omega
  · simp only [auditCap, u32Max] at hcap hhead ⊢
    omega
  · intro i hi
    have hslot : w'.audit.slot (w'.audit.ring.index auditCap i) = _ := hrecent.slot_index hi
    rw [hslot, List.getElem?_eq_getElem (by omega)]
    rfl

def Sample.entries : List AuditEntry := (List.range 21).map fun i => ⟨"migrate", party 8, i, "2"⟩

theorem sample_audit_log_sliding_window :
    ∃ us w', each appendAuditEntry Sample.entries (Sample.signed [] 0) Sample.genesis.world = .ok us w' ∧
      readAuditLog w' = Sample.entries.drop (Sample.entries.length - auditCap) ∧
      (readAuditLog w').length = min Sample.entries.length auditCap ∧
      w'.audit.ring.len ≤ w'.audit.ring.head + auditCap ∧
      w'.audit.ring.head + auditCap + w'.audit.ring.len ≤ u32Max ∧
      (∀ i < w'.audit.ring.len, (w'.audit.slot (w'.audit.ring.index auditCap i)).isSome = true) ∧
      ((List.range w'.audit.ring.len).map (w'.audit.ring.index auditCap)).Nodup :=
  audit_log_sliding_window (Sample.signed [] 0) Sample.genesis.world rfl Sample.entries

end SoroStream
