import SoroStream.Contract.Manage
import SoroStream.Money

namespace SoroStream

open Lib Lib.Rollback Lib.Rollback.Prog

variable {host : Host} {env : Env host} {w w' : World} {u : Unit}

namespace Book

def save (b : Book) (s : Stream) : Book := { b with streams := b.streams.insert s.id s }

def close (b : Book) (id : StreamId) (s : Stream) : Book :=
  { b with
    streams := b.streams.erase id
    senders := Function.update b.senders s.sender (Storage.unindex (b.senders s.sender) id)
    recipients := Function.update b.recipients s.recipient (Storage.unindex (b.recipients s.recipient) id) }

def add (b : Book) (s : Stream) : Book :=
  { b with
    streams := b.streams.insert s.id s
    senders := Function.update b.senders s.sender ((b.senders s.sender).push s.id)
    recipients := Function.update b.recipients s.recipient ((b.recipients s.recipient).push s.id)
    globalIndex := b.globalIndex.push s.id }

def RoomFor (b : Book) (s : Stream) : Prop :=
  (b.senders s.sender).size + 1 ≤ u32Max ∧ (b.recipients s.recipient).size + 1 ≤ u32Max ∧
    b.globalIndex.size + 1 ≤ u32Max

def handOver (b : Book) (id : StreamId) (old new : Address) : Book :=
  let dropped := Function.update b.recipients old (Storage.unindex (b.recipients old) id)
  { b with recipients := Function.update dropped new ((dropped new).push id) }

/-- A record after the settlement of a claim: kept, or closed when nothing is left of it. -/
def settle (b : Book) (id : StreamId) (s : Stream) : Option Stream → Book
  | some s' => b.save s'
  | none => b.close id s

def markNonce (b : Book) (sender : Address) (nonce : Nat) : Book :=
  { b with nonces := Function.update b.nonces sender (Function.update (b.nonces sender) nonce (some true)) }

def countBatch (b : Book) (sender : Address) (n : Nat) : Book :=
  { b with batchNonce := Function.update b.batchNonce sender (some n) }

def setDelegate (b : Book) (id : StreamId) (operator : Option Address) : Book :=
  { b with delegates := Function.update b.delegates id operator }

@[simp] theorem save_streams (b : Book) (s : Stream) : (b.save s).streams = b.streams.insert s.id s := rfl
@[simp] theorem close_streams (b : Book) (id : StreamId) (s : Stream) :
    (b.close id s).streams = b.streams.erase id := rfl
@[simp] theorem add_streams (b : Book) (s : Stream) : (b.add s).streams = b.streams.insert s.id s := rfl
@[simp] theorem handOver_streams (b : Book) (id : StreamId) (old new : Address) :
    (b.handOver id old new).streams = b.streams := rfl
@[simp] theorem markNonce_streams (b : Book) (sender : Address) (nonce : Nat) :
    (b.markNonce sender nonce).streams = b.streams := rfl
@[simp] theorem countBatch_streams (b : Book) (sender : Address) (n : Nat) :
    (b.countBatch sender n).streams = b.streams := rfl
@[simp] theorem setDelegate_streams (b : Book) (id : StreamId) (operator : Option Address) :
    (b.setDelegate id operator).streams = b.streams := rfl

end Book

def World.withBook (w : World) (b : Book) : World := { w with book := b }

@[simp] theorem withBook_config (w : World) (b : Book) : (w.withBook b).config = w.config := rfl
@[simp] theorem withBook_pause (w : World) (b : Book) : (w.withBook b).pause = w.pause := rfl
@[simp] theorem withBook_audit (w : World) (b : Book) : (w.withBook b).audit = w.audit := rfl
@[simp] theorem withBook_book (w : World) (b : Book) : (w.withBook b).book = b := rfl
@[simp] theorem withBook_treasury (w : World) (b : Book) : (w.withBook b).treasury = w.treasury := rfl
@[simp] theorem withBook_wasm (w : World) (b : Book) : (w.withBook b).wasm = w.wasm := rfl
@[simp] theorem withBook_balances (w : World) (b : Book) : (w.withBook b).balances = w.balances := rfl
@[simp] theorem withBook_log (w : World) (b : Book) : (w.withBook b).log = w.log := rfl
@[simp] theorem withBook_withBook (w : World) (b c : Book) : (w.withBook b).withBook c = w.withBook c := rfl

theorem saveStream_ok {s : Stream} :
    Storage.saveStream s env w = .ok u w' ↔ w.withBook (w.book.save s) = w' := by
  simp only [Storage.saveStream, setBook, update_ok]
  rfl

theorem closeStream_ok {id : StreamId} {s : Stream} :
    Contract.closeStream id s env w = .ok u w' ↔ w.withBook (w.book.close id s) = w' := by
  simp only [Contract.closeStream, Storage.removeStream, Storage.unindexBySender,
    Storage.unindexByRecipient, setBook, bind_ok, update_ok]
  constructor
  · rintro ⟨_, _, rfl, _, _, rfl, rfl⟩
    rfl
  · rintro rfl
    exact ⟨(), _, rfl, (), _, rfl, rfl⟩

theorem pushIndex_ok {get : Book → SlotArray StreamId} {set : SlotArray StreamId → Book → Book}
    {id : StreamId} :
    Storage.pushIndex get set id env w = .ok u w' ↔
      (get w.book).size + 1 ≤ u32Max ∧ w.withBook (set ((get w.book).push id) w.book) = w' := by
  simp only [Storage.pushIndex, ask, setBook, bind_ok, read_ok, haltIf_ok, update_ok, not_lt, and_assoc,
    exists_and_left, exists_eq_left', exists_const]
  rfl

theorem addStream_ok {s : Stream} :
    Contract.addStream s env w = .ok u w' ↔ w.book.RoomFor s ∧ w.withBook (w.book.add s) = w' := by
  simp only [Contract.addStream, Storage.indexBySender, Storage.indexByRecipient, Storage.indexGlobalStream, bind_ok,
    saveStream_ok, pushIndex_ok, Book.RoomFor, and_assoc, exists_and_left, exists_eq_left', exists_const]
  rfl

theorem markNonceUsed_ok {sender : Address} {nonce : Nat} :
    Storage.markNonceUsed sender nonce env w = .ok u w' ↔
      w.withBook (w.book.markNonce sender nonce) = w' := by
  simp only [Storage.markNonceUsed, setBook, update_ok]
  rfl

theorem incrementBatchNonce_ok {sender : Address} :
    Storage.incrementBatchNonce sender env w = .ok u w' ↔
      Storage.getBatchNonce sender w + 1 ≤ u64Max ∧
        w.withBook (w.book.countBatch sender (Storage.getBatchNonce sender w + 1)) = w' := by
  simp only [Storage.incrementBatchNonce, ask, setBook, bind_ok, read_ok, okOrHalt_ok, update_ok, checkedAddU64,
    Checked.addNat_eq_some, and_assoc, exists_and_left, exists_eq_left']
  rfl

def PauseCells.pausedAt (p : PauseCells) (now : Nat) : Bool :=
  p.paused.getD false && !decide (0 < p.expiry.getD 0 ∧ p.expiry.getD 0 ≤ now)

def PauseCells.settle (p : PauseCells) (now : Nat) : PauseCells :=
  if p.paused.getD false = true ∧ 0 < p.expiry.getD 0 ∧ p.expiry.getD 0 ≤ now then ⟨some false, some 0⟩
  else p

def World.awake (w : World) (now : Nat) : World := { w with pause := w.pause.settle now }

@[simp] theorem awake_config (w : World) (now : Nat) : (w.awake now).config = w.config := rfl
@[simp] theorem awake_audit (w : World) (now : Nat) : (w.awake now).audit = w.audit := rfl
@[simp] theorem awake_book (w : World) (now : Nat) : (w.awake now).book = w.book := rfl
@[simp] theorem awake_treasury (w : World) (now : Nat) : (w.awake now).treasury = w.treasury := rfl
@[simp] theorem awake_wasm (w : World) (now : Nat) : (w.awake now).wasm = w.wasm := rfl
@[simp] theorem awake_balances (w : World) (now : Nat) : (w.awake now).balances = w.balances := rfl
@[simp] theorem awake_log (w : World) (now : Nat) : (w.awake now).log = w.log := rfl

theorem isPausedOrAutoUnpause_run (env : Env host) (w : World) :
    Storage.isPausedOrAutoUnpause env w =
      .ok (w.pause.pausedAt env.timestamp.val) (w.awake env.timestamp.val) := by
  simp only [Storage.isPausedOrAutoUnpause, Storage.getPauseExpiry, Storage.setPaused,
    Storage.setPauseExpiry, ask, timestamp, setPause, bind_ok, read_ok]
  refine ⟨_, _, ⟨rfl, rfl⟩, ?_⟩
  by_cases hp : w.pause.paused.getD false = false
  · simp [hp, PauseCells.pausedAt, World.awake, PauseCells.settle]
  · by_cases he : 0 < w.pause.expiry.getD 0 ∧ w.pause.expiry.getD 0 ≤ env.timestamp.val
    · simp [hp, he, PauseCells.pausedAt, World.awake, PauseCells.settle]
    · have hlt : 0 < w.pause.expiry.getD 0 → env.timestamp.val < w.pause.expiry.getD 0 := by omega
      simpa [hp, he, PauseCells.pausedAt, World.awake, PauseCells.settle] using hlt

theorem requireRunning_ok :
    Contract.requireRunning env w = .ok u w' ↔
      w.pause.pausedAt env.timestamp.val = false ∧ w.awake env.timestamp.val = w' := by
  simp only [Contract.requireRunning, bind_ok, isPausedOrAutoUnpause_run, Outcome.ok.injEq, failIf_ok,
    Bool.not_eq_true, and_assoc, exists_eq_left', exists_and_left]

end SoroStream
