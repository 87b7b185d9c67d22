import SoroStream.Notes
import SoroStream.Exit
import SoroStream.Apart
import SoroStream.Identity

namespace SoroStream

open Lib Lib.Rollback Lib.Rollback.Prog Lib.Runs Contract

variable {host : Host} {env : Env host} {w w' : World} {c c₀ : Chain} {e : Event host} {id j : StreamId} {a : Address}
  {s s' q : Stream} {ids made : List StreamId} {events : List (Event host)}

def Stream.RunsOut (s : Stream) (now : Nat) : Prop := s.endTime ≤ now ∧ s.autoRenew = false

instance (s : Stream) (now : Nat) : Decidable (s.RunsOut now) := inferInstanceAs (Decidable (_ ∧ _))

def World.holds (w : World) (p : Stream → Prop) [DecidablePred p] (id : StreamId) : Bool :=
  (w.book.streams.lookup id).any fun s => decide (p s)

theorem World.holds_of_lookup {p : Stream → Prop} [DecidablePred p] (hs : w.book.streams.lookup id = some s) :
    w.holds p id = true ↔ p s := by
  simp [World.holds, hs]

/-- The IDs that a call frees or takes, but for an archiving, which sees to the
delegate too, and the creations, which look before they take. -/
def StreamCall.displaced (env : Env host) (w : World) : StreamCall → List StreamId
  | .cancelStream id _ | .recipientTerminate id _ => [id]
  | .withdraw id _ => [id].filter (w.holds fun s => s.RunsOut env.now)
  | .batchWithdraw ids _ => ids.filter (w.holds fun s => s.RunsOut env.now)
  | .batchCancelStream ids sender => ids.filter (w.holds fun s => s.sender = sender ∧ s.Live)
  | .partialCancelStream id _ _ => ((w.book.streams.lookup id).map fun s =>
      Storage.deriveStreamId host s.sender s.recipient (s.clock env.now) id).toList
  | _ => []

def Kept (id : StreamId) (s : Stream) (b : Book) : Prop :=
  ∃ s', b.streams.lookup id = some s' ∧ s'.sender = s.sender

theorem save_kept {b : Book} (hid : q.id = id) (hsender : q.sender = s.sender) : Kept id s (b.save q) := by
  refine ⟨q, ?_, hsender⟩
  subst hid
  exact Finmap.lookup_insert _

theorem Idle.kept (h : Idle id w w') (hs : w.book.streams.lookup id = some s) : Kept id s w'.book :=
  ⟨s, h.record.trans hs, rfl⟩

theorem withdrawal_fate {single : Bool} {claim : Int} {w₁ : World} {out : Option Stream} {us : List Transfer}
    (h : Withdrawal env w single id s claim w₁ out us) (hid : s.id = id) :
    s.RunsOut env.now ∧ (Withdrawal.result w₁ id s claim env.now out us).book.streams.lookup id = none ∨
      ¬s.RunsOut env.now ∧ ∃ s', (Withdrawal.result w₁ id s claim env.now out us).book.streams.lookup id = some s' ∧
        s'.sender = s.sender ∧ ¬s'.RunsOut env.now := by
  rw [h.lookup hid]
  cases h.settled with
  | running hend =>
      have hstays : ¬s.RunsOut env.now := fun h => absurd h.1 (not_le.mpr hend)
      exact .inr ⟨hstays, _, rfl, rfl, hstays⟩
  | renewed hend horder hauto =>
      have hstays : ¬s.RunsOut env.now := fun h => Bool.noConfusion (h.2.symm.trans hauto)
      exact .inr ⟨hstays, _, rfl, rfl, fun h => Bool.noConfusion (h.2.symm.trans hauto)⟩
  | lapsed hend horder hauto =>
      have hstays : ¬s.RunsOut env.now := fun h => Bool.noConfusion (h.2.symm.trans hauto)
      exact .inr ⟨hstays, _, rfl, rfl, hstays⟩
  | finished hend horder hauto => exact .inl ⟨⟨hend, hauto⟩, rfl⟩

theorem batchWithdraw_removes {recipient : Address} {claims : List Int} (hauth : env.auths recipient = true)
    (hw : Accounts env.now w.book.streams) (hs : w.book.streams.lookup id = some s) (hout : s.RunsOut env.now)
    (hmem : id ∈ ids) (h : each (batchWithdrawItem recipient) ids env w = .ok claims w') :
    w'.book.streams.lookup id = none := by
  refine batchWithdraw_turn (fun v => v.book.streams.lookup id = some s) (fun v => v.book.streams.lookup id = none)
    hauth hmem (fun hidle hs => hidle.record.trans hs) (fun hidle hgone => hidle.record.trans hgone) ?_ ?_ hw hs h
  · intro v claim v' hacc hs hok
    obtain ⟨r, w₁, out, us, -, hwd, rfl⟩ := batchWithdrawItem_ok hauth hok
    obtain rfl := Option.some.inj (hs.symm.trans hwd.stored)
    rcases withdrawal_fate hwd (hacc id s hs).1 with ⟨-, hgone⟩ | ⟨hstays, -⟩
    · exact hgone
    · exact absurd hout hstays
  · intro v claim v' hacc hgone hok
    obtain ⟨r, w₁, out, us, -, hwd, rfl⟩ := batchWithdrawItem_ok hauth hok
    exact absurd (hwd.stored.symm.trans hgone) (Option.some_ne_none r)

theorem batchWithdraw_keeps {recipient : Address} {claims : List Int} (hauth : env.auths recipient = true)
    (hw : Accounts env.now w.book.streams) (hs : w.book.streams.lookup id = some s) (hstays : ¬s.RunsOut env.now)
    (h : each (batchWithdrawItem recipient) ids env w = .ok claims w') : Kept id s w'.book := by
  have hall := batchWithdraw_inv id (fun v => ∃ q, v.book.streams.lookup id = some q ∧
    q.sender = s.sender ∧ ¬q.RunsOut env.now) hauth ?_ ?_ hw ⟨s, hs, rfl, hstays⟩ h
  · obtain ⟨q, hq, hsender, -⟩ := hall
    exact ⟨q, hq, hsender⟩
  · rintro v v' hidle ⟨q, hq, hsame⟩
    exact ⟨q, hidle.record.trans hq, hsame⟩
  · rintro - v claim v' hacc ⟨q, hq, hsender, hstays⟩ hok
    obtain ⟨r, w₁, out, us, -, hwd, rfl⟩ := batchWithdrawItem_ok hauth hok
    obtain rfl := Option.some.inj (hq.symm.trans hwd.stored)
    rcases withdrawal_fate hwd (hacc id q hq).1 with ⟨hout, -⟩ | ⟨-, s', hs', hsame, hstill⟩
    · exact absurd hout hstays
    · exact ⟨s', hs', hsame.trans hsender, hstill⟩

theorem batchCancel_removes {sender : Address} {results : List (Except StreamError Unit)}
    (hw : Accounts env.now w.book.streams) (hs : w.book.streams.lookup id = some s) (hsender : s.sender = sender)
    (hlive : s.Live) (hmem : id ∈ ids) (h : batchCancelStream ids sender env w = .ok results w') :
    w'.book.streams.lookup id = none := by
  obtain ⟨-, hitems⟩ := batchCancelStream_ok h
  refine (each_turn (fun v => Accounts env.now v.book.streams ∧ v.book.streams.lookup id = some s)
    (fun v => Accounts env.now v.book.streams ∧ v.book.streams.lookup id = none) hmem ?_ ?_ ?_ ⟨hw, hs⟩ hitems).2
  · rintro j - hne v result v' ⟨hacc, hs⟩ hitem
    rcases batchCancelItem_cases hitem with rfl | ⟨r, amount, hr, -, -, -, -, rfl⟩
    · exact ⟨hacc, hs⟩
    · exact ⟨hacc.erase _, (closed_idle (hacc j r hr).1 hne.symm).record.trans hs⟩
  · rintro v result v' ⟨hacc, hs⟩ hitem
    rcases attempt_ok.mp hitem with ⟨u, hitem, -⟩ | ⟨e, hitem, -⟩
    · obtain ⟨r, amount, -, -, -, -, -, rfl⟩ := batchCancelItem_ok.mp hitem
      exact ⟨hacc.erase _, Finmap.lookup_erase id v.book.streams⟩
    · have hnone := (batchCancelItem_refuses hitem).2 s hs hsender hlive
      rw [(hacc id s hs).2.earnedAt_eq_some] at hnone
      exact absurd hnone (Option.some_ne_none _)
  · rintro j - v result v' ⟨hacc, hgone⟩ hitem
    rcases batchCancelItem_cases hitem with rfl | ⟨r, amount, hr, -, -, -, -, rfl⟩
    · exact ⟨hacc, hgone⟩
    · refine ⟨hacc.erase _, ?_⟩
      have hne : id ≠ j := by
        rintro rfl
        exact Option.some_ne_none r (hr.symm.trans hgone)
      exact (closed_idle (hacc j r hr).1 hne).record.trans hgone

theorem displaced_cases (h : j ∈ StreamCall.displaced env w k) (hok : k.exec env w = .ok made w') :
    j ∈ k.targets ∨ j ∈ made := by
  cases k with
  | cancelStream | recipientTerminate => exact .inl h
  | withdraw | batchWithdraw | batchCancelStream => exact .inl (List.mem_filter.mp h).1
  | partialCancelStream id caller cancelAmount =>
      obtain ⟨newId, _, hok, rfl, rfl⟩ := bind_ok.mp hok
      obtain ⟨-, r, earned, streamed, -, rfl, hsplit, rfl⟩ := partialCancelStream_ok hok
      simp only [StreamCall.displaced, hsplit.stored, Option.map_some, Option.toList_some] at h
      exact .inr h
  | _ => exact absurd h List.not_mem_nil

/-- The record of a stream that a call does not make anew is displaced, archived or kept. -/
theorem streamCall_fate {k : StreamCall} (hw : Accounts env.now w.book.streams)
    (hs : w.book.streams.lookup id = some s) (hmade : id ∉ made) (hok : k.exec env w = .ok made w') :
    id ∈ k.displaced env w ∧ w'.book.streams.lookup id = none ∨
      id ∉ k.displaced env w ∧ ((∃ caller, k = .archiveStream id caller) ∨ Kept id s w'.book) := by
  have hw' : Accounts env.now (w.awake env.now).book.streams := hw
  have hs' : (w.awake env.now).book.streams.lookup id = some s := hs
  by_cases htarget : id ∉ k.targets
  · refine .inr ⟨?_, .inr ((streamCall_idle hw hs htarget hmade hok).kept hs)⟩
    exact fun hmem => (displaced_cases hmem hok).elim htarget hmade
  rw [not_not] at htarget
  cases k with
  | createStream | batchCreateStream => exact absurd htarget List.not_mem_nil
  | withdraw j recipient =>
      obtain rfl := List.mem_singleton.mp htarget
      obtain ⟨_, _, hok, -, rfl⟩ := bind_ok.mp hok
      obtain ⟨-, r, claim, w₁, out, us, -, hwd, rfl⟩ := withdraw_ok hok
      obtain rfl := Option.some.inj (hs.symm.trans hwd.stored)
      rw [StreamCall.displaced, List.mem_filter, World.holds_of_lookup hs]
      rcases withdrawal_fate hwd (hw id s hs).1 with ⟨hout, hgone⟩ | ⟨hstays, s', hs', hsender, -⟩
      · exact .inl ⟨⟨htarget, hout⟩, hgone⟩
      · exact .inr ⟨fun h => hstays h.2, .inr ⟨s', hs', hsender⟩⟩
  | batchWithdraw ids recipient =>
      obtain ⟨_, _, hok, -, rfl⟩ := bind_ok.mp hok
      obtain ⟨-, hauth, hitems⟩ := batchWithdraw_ok hok
      rw [StreamCall.displaced, List.mem_filter, World.holds_of_lookup hs]
      by_cases hout : s.RunsOut env.now
      · exact .inl ⟨⟨htarget, hout⟩, batchWithdraw_removes hauth hw' hs' hout htarget hitems⟩
      · exact .inr ⟨fun h => hout h.2, .inr (batchWithdraw_keeps hauth hw' hs' hout hitems)⟩
  | cancelStream j caller =>
      obtain rfl := List.mem_singleton.mp htarget
      obtain ⟨_, _, hok, -, rfl⟩ := bind_ok.mp hok
      obtain ⟨-, r, amount, -, -, -, -, -, rfl⟩ := cancelStream_ok.mp hok
      exact .inl ⟨htarget, Finmap.lookup_erase id w.book.streams⟩
  | batchCancelStream ids sender =>
      obtain ⟨_, _, hok, -, rfl⟩ := bind_ok.mp hok
      rw [StreamCall.displaced, List.mem_filter, World.holds_of_lookup hs]
      by_cases hmine : s.sender = sender ∧ s.Live
      · exact .inl ⟨⟨htarget, hmine⟩, batchCancel_removes hw hs hmine.1 hmine.2 htarget hok⟩
      · have hidle := batchCancelStream_idle hw hs (fun _ hsender hlive => hmine ⟨hsender, hlive⟩) hok
        exact .inr ⟨fun h => hmine h.2, .inr (hidle.kept hs)⟩
  | recipientTerminate j recipient =>
      obtain rfl := List.mem_singleton.mp htarget
      obtain ⟨_, _, hok, -, rfl⟩ := bind_ok.mp hok
      obtain ⟨-, -, r, amount, -, -, -, -, -, -, rfl⟩ := recipientTerminate_ok.mp hok
      exact .inl ⟨htarget, Finmap.lookup_erase id w.book.streams⟩
  | transferRecipient j current recipient =>
      obtain rfl := List.mem_singleton.mp htarget
      obtain ⟨_, _, hok, -, rfl⟩ := bind_ok.mp hok
      obtain ⟨-, r, claim, w₁, -, hh, rfl⟩ := transferRecipient_ok hok
      obtain rfl := Option.some.inj (hs.symm.trans hh.stored)
      have hid : (s.advance claim (s.clock env.now)).id = id := (advance_id s _ _).trans (hw id s hs).1
      exact .inr ⟨List.not_mem_nil, .inr (save_kept (q := { s.advance claim _ with recipient := recipient }) hid
        (advance_sender s _ _))⟩
  | partialCancelStream j caller cancelAmount =>
      obtain rfl := List.mem_singleton.mp htarget
      obtain ⟨newId, _, hok, rfl, rfl⟩ := bind_ok.mp hok
      obtain ⟨-, r, earned, streamed, -, rfl, hsplit, rfl⟩ := partialCancelStream_ok hok
      obtain rfl := Option.some.inj (hs.symm.trans hsplit.stored)
      have hcancelled : Kept id s (w.book.save { s with status := .cancelled }) :=
        save_kept (q := { s with status := .cancelled }) (hw id s hs).1 rfl
      obtain ⟨s', hs', hsender⟩ := hcancelled
      refine .inr ⟨?_, .inr ⟨s', ?_, hsender⟩⟩
      · simpa only [StreamCall.displaced, hs, Option.map_some, Option.toList_some] using hmade
      · exact (Finmap.lookup_insert_of_ne _ (List.ne_of_not_mem_cons hmade)).trans hs'
  | topUp j caller token amount =>
      obtain rfl := List.mem_singleton.mp htarget
      obtain ⟨_, _, hok, -, rfl⟩ := bind_ok.mp hok
      obtain ⟨-, r, -, ht, rfl⟩ := topUp_ok hok
      obtain rfl := Option.some.inj (hs.symm.trans ht.stored)
      exact .inr ⟨List.not_mem_nil, .inr (save_kept (q := s.toppedUp _) (hw id s hs).1 rfl)⟩
  | pauseStream j sender =>
      obtain rfl := List.mem_singleton.mp htarget
      obtain ⟨_, _, hok, -, rfl⟩ := bind_ok.mp hok
      obtain ⟨-, r, hr, -, -, -, rfl⟩ := pauseStream_ok hok
      obtain rfl := Option.some.inj (hs.symm.trans hr)
      exact .inr ⟨List.not_mem_nil, .inr (save_kept (q := { s with status := .paused, lastPauseTime := env.now })
        (hw id s hs).1 rfl)⟩
  | resumeStream j sender =>
      obtain rfl := List.mem_singleton.mp htarget
      obtain ⟨_, _, hok, -, rfl⟩ := bind_ok.mp hok
      obtain ⟨-, r, hr, -, -, -, rfl⟩ := resumeStream_ok hok
      obtain rfl := Option.some.inj (hs.symm.trans hr)
      exact .inr ⟨List.not_mem_nil, .inr (save_kept (q := resumed s (env.now - s.lastPauseTime)) (hw id s hs).1 rfl)⟩
  | archiveStream j caller =>
      obtain rfl := List.mem_singleton.mp htarget
      exact .inr ⟨List.not_mem_nil, .inl ⟨caller, rfl⟩⟩
  | delegate sender j operator =>
      obtain ⟨_, _, hok, -, rfl⟩ := bind_ok.mp hok
      obtain ⟨r, -, -, -, rfl⟩ := delegate_ok hok
      exact .inr ⟨List.not_mem_nil, .inr ⟨s, hs, rfl⟩⟩
  | revokeDelegate sender j =>
      obtain ⟨_, _, hok, -, rfl⟩ := bind_ok.mp hok
      obtain ⟨r, -, -, -, rfl⟩ := revokeDelegate_ok hok
      exact .inr ⟨List.not_mem_nil, .inr ⟨s, hs, rfl⟩⟩
  | updateMetadata sender j metadata =>
      obtain rfl := List.mem_singleton.mp htarget
      obtain ⟨_, _, hok, -, rfl⟩ := bind_ok.mp hok
      obtain ⟨r, hr, -, -, -, rfl⟩ := updateMetadata_ok hok
      obtain rfl := Option.some.inj (hs.symm.trans hr)
      exact .inr ⟨List.not_mem_nil, .inr (save_kept (q := { s with metadata }) (hw id s hs).1 rfl)⟩
  | cancelAutoRenew sender j =>
      obtain rfl := List.mem_singleton.mp htarget
      obtain ⟨_, _, hok, -, rfl⟩ := bind_ok.mp hok
      obtain ⟨r, hr, -, -, rfl⟩ := cancelAutoRenew_ok hok
      obtain rfl := Option.some.inj (hs.symm.trans hr)
      exact .inr ⟨List.not_mem_nil, .inr (save_kept (q := { s with autoRenew := false }) (hw id s hs).1 rfl)⟩

def Chain.Names (c : Chain) (sender : Address) (id : StreamId) (operator : Address) (e : Event host) : Prop :=
  ∃ env, e = .call env (.stream (.delegate sender id operator)) ∧ env.auths sender = true ∧
    ∃ s, Storage.loadStream id c.world = some s ∧ s.sender = sender

abbrev Named (c₀ : Chain) (events : List (Event host)) (sender : Address) (id : StreamId)
    (operator : Address) : Prop :=
  Since Chain.step (fun c e => Chain.Names c sender id operator e) (fun c e => id ∉ Chain.made c e) c₀ events

def StreamCall.operated : StreamCall → Option (StreamId × Address)
  | .cancelStream id caller | .partialCancelStream id caller _ | .topUp id caller _ _ => some (id, caller)
  | _ => none

structure DelegatesOwn (c₀ : Chain) (events : List (Event host)) (c : Chain) : Prop where
  own : ∀ id operator, Storage.getDelegate id c.world = some operator →
    ∃ s, Storage.loadStream id c.world = some s ∧ Named c₀ events s.sender id operator
  bare : ∀ es e, events = es ++ [e] → ∀ id ∈ (c₀.after es).made e, Storage.getDelegate id c.world = none
  used : ∀ (env : Env host) (k : StreamCall) made w', k.exec env c.world = .ok made w' →
    ∀ id caller, k.operated = some (id, caller) →
      ∃ s, Storage.loadStream id c.world = some s ∧ (s.sender = caller ∨ Named c₀ events s.sender id caller)

/-- A successful call that displaces a stream and leaves the delegate of its ID behind. -/
def Chain.Orphans (c : Chain) : Event host → Prop
  | .call env (.stream k) => (k.exec env c.world).value?.isSome = true ∧
      ∃ id ∈ k.displaced env c.world, (Storage.getDelegate id c.world).isSome = true
  | _ => False

instance : ∀ (c : Chain) (e : Event host), Decidable (c.Orphans e)
  | _, .call _ (.stream _) => inferInstanceAs (Decidable (_ ∧ _))
  | _, .call _ (.config _) => .isFalse fun h => h
  | _, .call _ (.view _) => .isFalse fun h => h
  | _, .treasury _ _ => .isFalse fun h => h
  | _, .tokens _ _ => .isFalse fun h => h

theorem Named.not_made {sender operator : Address} (h : Named c₀ (events ++ [e]) sender id operator) :
    id ∉ (c₀.after events).made e := by
  rcases (since_snoc c₀ events e).mp h with ⟨env, rfl, -⟩ | ⟨-, hmade⟩
  · intro hmem
    cases hx : (StreamCall.delegate sender id operator).exec env (c₀.after events).world with
    | ok made w' =>
        obtain ⟨_, _, -, hmade⟩ := bind_ok.mp hx
        obtain ⟨rfl, -⟩ := pure_ok.mp hmade
        simp [Chain.made, Call.exec, hx, Outcome.value?] at hmem
    | err | trap => simp [Chain.made, Call.exec, hx, Outcome.value?] at hmem
  · exact hmade

theorem requireSenderOrDelegate_operated {k : StreamCall} (hok : k.exec env w = .ok made w')
    (hk : k.operated = some (id, a)) :
    ∃ s, Storage.loadStream id w = some s ∧ (s.sender = a ∨ Storage.getDelegate id w = some a) := by
  cases k with
  | cancelStream j caller =>
      obtain ⟨rfl, rfl⟩ := Prod.mk.inj (Option.some.inj hk)
      obtain ⟨_, _, hok, -, rfl⟩ := bind_ok.mp hok
      obtain ⟨-, r, amount, hr, hcaller, -⟩ := cancelStream_ok.mp hok
      exact ⟨r, hr, hcaller⟩
  | partialCancelStream j caller cancelAmount =>
      obtain ⟨rfl, rfl⟩ := Prod.mk.inj (Option.some.inj hk)
      obtain ⟨_, _, hok, -, rfl⟩ := bind_ok.mp hok
      obtain ⟨-, r, earned, streamed, hcaller, -, hsplit, -⟩ := partialCancelStream_ok hok
      exact ⟨r, hsplit.stored, hcaller⟩
  | topUp j caller token amount =>
      obtain ⟨rfl, rfl⟩ := Prod.mk.inj (Option.some.inj hk)
      obtain ⟨_, _, hok, -, rfl⟩ := bind_ok.mp hok
      obtain ⟨-, r, hcaller, ht, -⟩ := topUp_ok hok
      exact ⟨r, ht.stored, hcaller⟩
  | _ => exact absurd hk.symm (Option.some_ne_none _)

theorem delegatesOwn_of_own (hown : ∀ id operator, Storage.getDelegate id c.world = some operator →
    ∃ s, Storage.loadStream id c.world = some s ∧ Named c₀ events s.sender id operator) :
    DelegatesOwn c₀ events c := by
  refine ⟨hown, ?_, ?_⟩
  · rintro es e rfl id hmade
    rw [Option.eq_none_iff_forall_ne_some]
    intro operator hoperator
    obtain ⟨s, -, hnamed⟩ := hown id operator hoperator
    exact hnamed.not_made hmade
  · intro env k made w' hok id caller hk
    obtain ⟨s, hs, hsender | hdelegate⟩ := requireSenderOrDelegate_operated hok hk
    · exact ⟨s, hs, .inl hsender⟩
    · obtain ⟨r, hr, hnamed⟩ := hown id caller hdelegate
      exact ⟨r, hr, .inr hnamed⟩

/-- A creation looks for a stored record first; only a split may displace one. -/
theorem made_displaced {k : StreamCall} (hs : w.book.streams.lookup id = some s) (hmade : id ∈ made)
    (hok : k.exec env w = .ok made w') : id ∈ k.displaced env w := by
  cases k with
  | createStream args =>
      obtain ⟨newId, _, hok, rfl, -⟩ := bind_ok.mp hok
      obtain ⟨-, rfl, fees, hc, -⟩ := createStream_ok hok
      obtain rfl := List.mem_singleton.mp hmade
      exact absurd (hs.symm.trans hc.free) (Option.some_ne_none s)
  | batchCreateStream args =>
      obtain ⟨-, hb, -⟩ := batchCreateStream_ok hok
      obtain ⟨rfl, -, -⟩ := batchCreateStream_acts hok
      obtain ⟨entry, hentry, rfl⟩ := List.mem_map.mp hmade
      exact absurd (hs.symm.trans (hb.free entry hentry)) (Option.some_ne_none s)
  | partialCancelStream j caller cancelAmount =>
      obtain ⟨newId, _, hok, rfl, -⟩ := bind_ok.mp hok
      obtain ⟨-, r, earned, streamed, -, rfl, hsplit, -⟩ := partialCancelStream_ok hok
      simpa only [StreamCall.displaced, hsplit.stored, Option.map_some, Option.toList_some] using hmade
  | _ =>
      obtain ⟨_, _, -, rfl, -⟩ := bind_ok.mp hok
      exact absurd hmade List.not_mem_nil

theorem noted_delegates {k : StreamCall} {n : Notes} {operator : Address}
    (h : (k.noted n).delegates id = some operator) :
    (∃ sender, k = .delegate sender id operator) ∨
      n.delegates id = some operator ∧ ∀ caller, k ≠ .archiveStream id caller := by
  cases k with
  | delegate sender j other =>
      rw [StreamCall.noted] at h
      by_cases hj : id = j
      · subst hj
        rw [Notes.setDelegate_self] at h
        obtain rfl := Option.some.inj h
        exact .inl ⟨sender, rfl⟩
      · rw [Notes.setDelegate_of_ne n _ hj] at h
        exact .inr ⟨h, fun _ h => StreamCall.noConfusion h⟩
  | revokeDelegate sender j =>
      rw [StreamCall.noted] at h
      by_cases hj : id = j
      · rw [hj, Notes.setDelegate_self] at h
        exact absurd h.symm (Option.some_ne_none operator)
      · rw [Notes.setDelegate_of_ne n _ hj] at h
        exact .inr ⟨h, fun _ h => StreamCall.noConfusion h⟩
  | archiveStream j caller =>
      rw [StreamCall.noted] at h
      by_cases hj : id = j
      · rw [hj, Notes.setDelegate_self] at h
        exact absurd h.symm (Option.some_ne_none operator)
      · rw [Notes.setDelegate_of_ne n _ hj] at h
        exact .inr ⟨h, fun caller' heq => hj (StreamCall.archiveStream.inj heq).1.symm⟩
  | _ => exact .inr ⟨h, fun _ h => StreamCall.noConfusion h⟩

theorem displaced_noted {k : StreamCall} {n : Notes} (h : id ∈ k.displaced env w) :
    (k.noted n).delegates = n.delegates := by
  cases k with
  | delegate | revokeDelegate | archiveStream => exact absurd h List.not_mem_nil
  | _ => rfl

theorem step_own (hreached : Reached host c) (hmay : May c e) (hstate : c₀.after events = c)
    (hown : ∀ id operator, Storage.getDelegate id c.world = some operator →
      ∃ s, Storage.loadStream id c.world = some s ∧ Named c₀ events s.sender id operator) (hgood : ¬c.Orphans e) :
    ∀ id operator, Storage.getDelegate id (c.step e).world = some operator →
      ∃ s, Storage.loadStream id (c.step e).world = some s ∧ Named c₀ (events ++ [e]) s.sender id operator := by
  have hlater : ∀ {sender id operator}, Named c₀ events sender id operator → id ∉ c.made e →
      Named c₀ (events ++ [e]) sender id operator := by
    intro sender id operator hnamed hmade
    refine (since_snoc c₀ events e).mpr (.inr ⟨hnamed, ?_⟩)
    rwa [show events.foldl Chain.step c₀ = c from hstate]
  intro id operator hoperator
  rcases step_cases hmay with ⟨hmade, haside⟩ | ⟨env, k, _, _, rfl, hok, -, -, -, -⟩
  · rw [Storage.getDelegate, haside.book] at hoperator
    obtain ⟨s, hs, hnamed⟩ := hown id operator hoperator
    refine ⟨s, ?_, hlater hnamed (hmade ▸ List.not_mem_nil)⟩
    rw [Storage.loadStream, haside.book]
    exact hs
  · have hstays : ∀ id operator, Storage.getDelegate id c.world = some operator → id ∉ k.displaced env c.world := by
      intro id operator hoperator hmem
      exact hgood ⟨by rw [hok]; rfl, id, hmem, by rw [hoperator]; rfl⟩
    have hnotes := congrArg (fun n => n.delegates id) (streamCall_notes hok)
    rcases noted_delegates (hnotes.symm.trans hoperator) with ⟨sender, rfl⟩ | ⟨hbefore, harchive⟩
    · obtain ⟨_, _, hcall, hreturn⟩ := bind_ok.mp hok
      obtain ⟨-, hworld⟩ := pure_ok.mp hreturn
      obtain ⟨s, hs, rfl, hauth, rfl⟩ := delegate_ok hcall
      refine ⟨s, by rw [← hworld]; exact hs, (since_snoc c₀ events _).mpr (.inl ⟨env, rfl, hauth, s, ?_, rfl⟩)⟩
      rwa [show events.foldl Chain.step c₀ = c from hstate]
    · obtain ⟨s, hs, hnamed⟩ := hown id operator hbefore
      have hmade := fun hmem => hstays id operator hbefore (made_displaced hs hmem hok)
      rcases streamCall_fate ((reached_accounts hreached).mono hmay.1) hs hmade hok with ⟨hmem, -⟩ |
        ⟨-, ⟨caller, rfl⟩ | ⟨s', hs', hsender⟩⟩
      · exact absurd hmem (hstays id operator hbefore)
      · exact absurd rfl (harchive caller)
      · exact ⟨s', hs', hsender ▸ hlater hnamed hmade⟩

/-- After an orphaned delegate is left, its stream is gone or another one has its ID. -/
theorem orphans_breaks (hreached : Reached host c) (hmay : May c e) (hstate : c₀.after events = c)
    (hown : ∀ id operator, Storage.getDelegate id c.world = some operator →
      ∃ s, Storage.loadStream id c.world = some s ∧ Named c₀ events s.sender id operator) (hbad : c.Orphans e) :
    ¬DelegatesOwn c₀ (events ++ [e]) (c.step e) := by
  intro hafter
  cases e with
  | treasury => exact hbad.elim
  | tokens => exact hbad.elim
  | call env call =>
      cases call with
      | config => exact hbad.elim
      | view => exact hbad.elim
      | stream k =>
          obtain ⟨hsome, id, hmem, hdelegate⟩ := hbad
          obtain ⟨made, hvalue⟩ := Option.isSome_iff_exists.mp hsome
          obtain ⟨w', hok⟩ := Outcome.value?_eq_some.mp hvalue
          obtain ⟨operator, hoperator⟩ := Option.isSome_iff_exists.mp hdelegate
          have hworld : (c.step (.call env (.stream k))).world = w' := by
            simp only [Chain.step, Call.exec, hok, Outcome.commit_ok]
          have hnotes : w'.book.delegates = c.world.book.delegates :=
            (congrArg Notes.delegates (streamCall_notes hok)).trans (displaced_noted hmem)
          have hstill : Storage.getDelegate id (c.step (.call env (.stream k))).world = some operator := by
            rw [hworld, Storage.getDelegate, hnotes]
            exact hoperator
          obtain ⟨s', hs', hnamed⟩ := hafter.own id operator hstill
          obtain ⟨s, hs, -⟩ := hown id operator hoperator
          have hmade : id ∉ made := by
            have h := hnamed.not_made
            rw [hstate] at h
            simpa [Chain.made, Call.exec, hok, Outcome.value?] using h
          rcases streamCall_fate ((reached_accounts hreached).mono hmay.1) hs hmade hok with ⟨-, hgone⟩ | ⟨hkept, -⟩
          · rw [hworld, Storage.loadStream, hgone] at hs'
            exact absurd hs'.symm (Option.some_ne_none s')
          · exact hkept hmem

/-- Delegation dies with its stream throughout a run exactly when no call displaces a
stream that has a delegate. -/
theorem delegates_own_iff (hfresh : Fresh host c₀) (hrun : SystemRun host c₀ events c) :
    (∀ es, es <+: events → DelegatesOwn c₀ es (c₀.after es)) ↔
      Throughout Chain.step (fun c e => ¬Chain.Orphans c e) c₀ events := by
  refine hrun.always_trace_iff (fun es c => SystemRun host c₀ es c ∧ ∀ id operator,
    Storage.getDelegate id c.world = some operator →
      ∃ s, Storage.loadStream id c.world = some s ∧ Named c₀ es s.sender id operator) ⟨.nil, ?_⟩ ?_ ?_ ?_
  · intro id operator hoperator
    simp [Storage.getDelegate, hfresh.book, Book.fresh] at hoperator
  · rintro es c e hr ⟨-, hown⟩ hmay hgood
    exact ⟨hr.snoc hmay, step_own ⟨c₀, es, hfresh, hr⟩ hmay hr.state_eq.symm hown hgood⟩
  · rintro es c ⟨-, hown⟩
    exact delegatesOwn_of_own hown
  · rintro es c e ⟨hr, hown⟩ hmay hbad
    exact orphans_breaks ⟨c₀, es, hfresh, hr⟩ hmay hr.state_eq.symm hown (not_not.mp hbad)

namespace Sample

def naming (time : U64) (id : StreamId) : Event site := call [2] time (.delegate (party 2) id (party 5))

def single (nonce : U64) : Event site :=
  call [2] 15 (.batchCreateStream
    { batchTerms with
      recipients := [party 3]
      amounts := [(terms 0 0).amount]
      tokens := [party 9]
      lockUntils := [0]
      nonce })

def lent : List (Event site) := [opening 0 0, naming 12 streamId, splitting]

/-- In one ledger a stream is made, delegated and cancelled, and its ID taken again. -/
def reissued : List (Event site) :=
  [single 0, naming 15 2315000, call [2] 15 (.cancelStream 2315000 (party 2)), single 1]

end Sample

theorem sample_delegates_own : DelegatesOwn Sample.genesis Sample.lent (Sample.genesis.after Sample.lent) :=
  (delegates_own_iff Sample.genesis_fresh (run_of_inOrder (by decide))).mpr (by decide +kernel) Sample.lent
    List.prefix_rfl

theorem delegate_outlives_stream :
    SystemRun Sample.site Sample.genesis Sample.reissued (Sample.genesis.after Sample.reissued) ∧
    (Sample.genesis.after (Sample.reissued.take 3)).made (Sample.single 1) = [2315000] ∧
    Storage.getDelegate 2315000 (Sample.genesis.after Sample.reissued).world = some (Sample.party 5) ∧
    (cancelStream 2315000 (Sample.party 5) (Sample.signed [5] 20)
      (Sample.genesis.after Sample.reissued).world).value?.isSome = true ∧
    ¬∀ es, es <+: Sample.reissued → DelegatesOwn Sample.genesis es (Sample.genesis.after es) := by
  have hmade : (Sample.genesis.after (Sample.reissued.take 3)).made (Sample.single 1) = [2315000] := by decide +kernel
  have hdelegate :
      Storage.getDelegate 2315000 (Sample.genesis.after Sample.reissued).world = some (Sample.party 5) := by
    decide +kernel
  refine ⟨run_of_inOrder (by decide), hmade, hdelegate, by decide +kernel, ?_⟩
  intro hall
  have hbare := (hall Sample.reissued List.prefix_rfl).bare (Sample.reissued.take 3) (Sample.single 1) rfl 2315000
    (hmade ▸ List.mem_singleton_self _)
  exact Option.some_ne_none _ (hdelegate.symm.trans hbare)

end SoroStream
