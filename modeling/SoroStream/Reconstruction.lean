import SoroStream.AuditTrail
import SoroStream.Following

namespace SoroStream

open Lib Lib.Rollback Lib.Rollback.Prog Lib.Runs Contract

variable {host : Host} {env : Env host} {c c' : Chain}

namespace Indexer

theorem read_wide {r : Receipt} {ix : Index} {e : Published} (h : e.contractWide = true) : read r ix e = some ix := by
  cases e <;> first | rfl | cases h

theorem read_step {e : Event host} (hc : Accounts c.now c.world.book.streams) (hmay : May c e) :
    replay readReceipt (known c.world.book.streams) (c.receipts e) = some (known (c.step e).world.book.streams) := by
  rcases receipts_cases c e with ⟨hnone, hsame, -⟩ | ⟨env, call, ids, w', es, rfl, hemit, -, hstep, hreceipt⟩
  · rw [hnone, hsame.book]
    rfl
  · rw [hreceipt, hstep, replay_single]
    cases call with
    | stream call =>
        obtain ⟨es', hes, hreport⟩ := streamCall_reports hemit
        obtain rfl : es = es' := hes
        exact read_call hreport (hc.mono hmay.1)
    | view v =>
        obtain ⟨hv, rfl⟩ := quietly_ok.mp hemit
        obtain ⟨_, _, hv, -, rfl⟩ := bind_ok.mp hv
        exact congrArg (fun w => some (known w.book.streams)) (view_silent v hv)
    | config call =>
        obtain ⟨_, _, hcall, -, rfl⟩ := bind_ok.mp hemit
        obtain ⟨es', entries, hes, hr⟩ := configCall_recorded hcall
        obtain rfl : es = es' := hes
        have hbook : w'.book = c.world.book := (configCall_aside call (Erases.ok (y := call.exec) hcall)).book
        rw [readReceipt, hbook]
        exact replay_skip fun e he => read_wide (hr.wide e he)

end Indexer

/-- In every run, whoever reads the published events from the deployment on, receipt by receipt
and with nothing else at hand, never meets an event that contradicts what was told before, and
knows at the end exactly which streams are stored, and of each its parties, deposit, rate,
times, status and payments. -/
theorem journal_tells_streams {events : List (Event host)} (hc : Fresh host c) (h : SystemRun host c events c') :
    replay Indexer.readReceipt (fun _ => none) (journal c events) =
      some fun id => (c'.world.book.streams.lookup id).map Stream.entry := by
  have hempty : Indexer.known c.world.book.streams = fun _ => none := by
    funext id
    rw [Indexer.known, hc.book, Book.fresh, Finmap.lookup_empty]
    rfl
  rw [← hempty]
  apply h.replay fun c => Indexer.known c.world.book.streams
  intro es s e hr hm
  exact Indexer.read_step (reached_accounts ⟨c, es, hc, hr⟩) hm

def Sample.followed : List (Event Sample.site) :=
  [Sample.opening 0 0, Sample.call [3] 1010 (.withdraw Sample.streamId (Sample.party 3)),
    Sample.call [2] 1100 (.pauseStream Sample.streamId (Sample.party 2)),
    Sample.call [2] 1200 (.resumeStream Sample.streamId (Sample.party 2)),
    Sample.call [2] 1300 (.partialCancelStream Sample.streamId (Sample.party 2) ⟨10000, by decide⟩)]

theorem sample_journal_tells_streams :
    replay Indexer.readReceipt (fun _ => none) (journal Sample.genesis Sample.followed) =
      some fun id => ((Sample.genesis.after Sample.followed).world.book.streams.lookup id).map Stream.entry :=
  journal_tells_streams Sample.genesis_fresh (run_of_inOrder (by decide))

end SoroStream
