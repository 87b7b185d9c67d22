import SoroStream.BatchCancel
import SoroStream.BatchWithdraw
import SoroStream.ClaimArithmetic
import SoroStream.Lib.Commuting
import SoroStream.Lib.Shuffling

namespace SoroStream

open Lib Lib.Rollback Lib.Rollback.Prog Contract

variable {host : Host} {env : Env host} {w v t u : World} {c : Chain} {ids ids' : List StreamId} {id j : StreamId}
  {s q : Stream} {sender recipient : Address} {claim : Int}

/-- Transfers, and the record that is kept in place of the old one, or none where it is closed. -/
structure Edit where
  transfers : List Transfer
  record : Stream
  out : Option Stream

def Edit.apply (e : Edit) (id : StreamId) (w : World) : World :=
  (w.pay e.transfers).withBook (w.book.settle id e.record e.out)

/-- An item that fails and is passed over writes nothing. -/
def World.edited (w : World) (id : StreamId) (e : Option Edit) : World := e.elim w (Edit.apply · id w)

/-- The same configuration, records and balances, and in every index the same entries. The
treasury contract's cells and the order of the transfers are left open. -/
structure Rearranged (w v : World) : Prop where
  config : v.config = w.config
  pause : v.pause = w.pause
  streams : v.book.streams = w.book.streams
  balances : v.balances = w.balances
  senders : ∀ a, (w.book.senders a).Shuffled (v.book.senders a)
  recipients : ∀ a, (w.book.recipients a).Shuffled (v.book.recipients a)

namespace Rearranged

theorem of_book (h : Entries w.book) (hconfig : v.config = w.config) (hpause : v.pause = w.pause)
    (hbook : v.book = w.book) (hbalances : v.balances = w.balances) : Rearranged w v where
  config := hconfig
  pause := hpause
  streams := by rw [hbook]
  balances := hbalances
  senders a := by
    obtain ⟨l, hl⟩ := h.senders.whole a
    rw [hbook]
    exact hl.shuffled
  recipients a := by
    obtain ⟨l, hl⟩ := h.recipients.whole a
    rw [hbook]
    exact hl.shuffled

theorem refl (h : Entries w.book) : Rearranged w w := of_book h rfl rfl rfl rfl

theorem symm (h : Rearranged w v) : Rearranged v w where
  config := h.config.symm
  pause := h.pause.symm
  streams := h.streams.symm
  balances := h.balances.symm
  senders a := (h.senders a).symm
  recipients a := (h.recipients a).symm

theorem trans (h : Rearranged w v) (h' : Rearranged v t) : Rearranged w t where
  config := h'.config.trans h.config
  pause := h'.pause.trans h.pause
  streams := h'.streams.trans h.streams
  balances := h'.balances.trans h.balances
  senders a := (h.senders a).trans (h'.senders a)
  recipients a := (h.recipients a).trans (h'.recipients a)

end Rearranged

theorem settle_senders (b : Book) (id : StreamId) (s : Stream) (out : Option Stream) (a : Address) :
    (b.settle id s out).senders a = SlotArray.dropIf (out = none ∧ a = s.sender) 0 (b.senders a) id := by
  cases out with
  | some s' => rfl
  | none =>
      by_cases ha : a = s.sender
      · subst ha
        simp [Book.settle, Book.close, SlotArray.dropIf, Storage.unindex]
      · simp [Book.settle, Book.close, SlotArray.dropIf, ha]

theorem settle_recipients (b : Book) (id : StreamId) (s : Stream) (out : Option Stream) (a : Address) :
    (b.settle id s out).recipients a = SlotArray.dropIf (out = none ∧ a = s.recipient) 0 (b.recipients a) id := by
  cases out with
  | some s' => rfl
  | none =>
      by_cases ha : a = s.recipient
      · subst ha
        simp [Book.settle, Book.close, SlotArray.dropIf, Storage.unindex]
      · simp [Book.settle, Book.close, SlotArray.dropIf, ha]

theorem settle_streams_congr {b b' : Book} (h : b'.streams = b.streams) (id : StreamId) (s : Stream)
    (out : Option Stream) : (b'.settle id s out).streams = (b.settle id s out).streams := by
  cases out with
  | some s' => rw [Book.settle, Book.settle, Book.save_streams, Book.save_streams, h]
  | none => rw [Book.settle, Book.settle, Book.close_streams, Book.close_streams, h]

theorem Rearranged.apply (h : Rearranged w v) (e : Edit) (id : StreamId) :
    Rearranged (e.apply id w) (e.apply id v) where
  config := h.config
  pause := h.pause
  streams := settle_streams_congr h.streams id e.record e.out
  balances := by
    funext token a
    rw [Edit.apply, Edit.apply, withBook_balances, withBook_balances, pay_balances, pay_balances, h.balances]
  senders a := by
    rw [Edit.apply, Edit.apply, withBook_book, withBook_book, settle_senders, settle_senders]
    exact (h.senders a).dropIf 0 id
  recipients a := by
    rw [Edit.apply, Edit.apply, withBook_book, withBook_book, settle_recipients, settle_recipients]
    exact (h.recipients a).dropIf 0 id

theorem Rearranged.edited (h : Rearranged w v) (id : StreamId) (e : Option Edit) :
    Rearranged (w.edited id e) (v.edited id e) := by
  cases e with
  | none => exact h
  | some e => exact h.apply e id

/-- The record that is kept has the ID of the item. -/
def Edit.Names (id : StreamId) (e : Edit) : Prop := ∀ s, e.out = some s → s.id = id

theorem apply_lookup_ne {e : Edit} (he : e.Names id) (hne : j ≠ id) :
    (e.apply id w).book.streams.lookup j = w.book.streams.lookup j := settle_lookup_ne he hne

theorem apply_lookup {e : Edit} (he : e.Names id) : (e.apply id w).book.streams.lookup id = e.out := by
  rw [Edit.apply, withBook_book]
  cases h : e.out with
  | none => exact Finmap.lookup_erase _ _
  | some s =>
      obtain rfl := he s h
      exact Finmap.lookup_insert _

/-- Edits of different streams in either order. -/
theorem apply_comm {e e' : Edit} (h : Entries w.book) (he : e.Names id) (he' : e'.Names j) (hne : id ≠ j) :
    Rearranged (e'.apply j (e.apply id w)) (e.apply id (e'.apply j w)) where
  config := rfl
  pause := rfl
  streams := by
    refine Finmap.ext_lookup fun k => ?_
    by_cases hk : k = id
    · subst hk
      rw [apply_lookup he, apply_lookup_ne he' hne, apply_lookup he]
    · by_cases hk' : k = j
      · subst hk'
        rw [apply_lookup_ne he hk, apply_lookup he', apply_lookup he']
      · rw [apply_lookup_ne he hk, apply_lookup_ne he' hk', apply_lookup_ne he' hk', apply_lookup_ne he hk]
  balances := by
    funext token a
    simp only [Edit.apply, withBook_balances, pay_balances]
    omega
  senders a := by
    obtain ⟨l, hl⟩ := h.senders.whole a
    simp only [Edit.apply, withBook_book, settle_senders]
    exact hl.dropIf_comm 0 id j
  recipients a := by
    obtain ⟨l, hl⟩ := h.recipients.whole a
    simp only [Edit.apply, withBook_book, settle_recipients]
    exact hl.dropIf_comm 0 id j

section

variable {β : Type} {f : StreamId → Contract host β} {S : StreamId → Prop} {I : World → Prop}
  {plan : StreamId → World → Option (β × Option Edit)}

/-- Items that each write one edit, read off the item's own record and the configuration. -/
structure Edits (env : Env host) (f : StreamId → Contract host β) (S : StreamId → Prop) (I : World → Prop)
    (plan : StreamId → World → Option (β × Option Edit)) : Prop where
  entries : ∀ {w}, I w → Entries w.book
  own : ∀ {id w v}, v.config = w.config → v.book.streams.lookup id = w.book.streams.lookup id → plan id v = plan id w
  names : ∀ {id w b e}, I w → plan id w = some (b, some e) → e.Names id
  keeps : ∀ {id w b v}, S id → I w → f id env w = .ok b v → I v
  runs : ∀ {id w b e}, S id → I w → plan id w = some (b, e) →
    ∃ v, f id env w = .ok b v ∧ Rearranged v (w.edited id e)
  only : ∀ {id w b v}, S id → I w → f id env w = .ok b v → ∃ e, plan id w = some (b, e)

/-- The value of a plan, and its edit as a function of the world. -/
def planned (plan : StreamId → World → Option (β × Option Edit)) (id : StreamId) (w : World) :
    Option (β × (World → World)) := (plan id w).map fun x => (x.1, (World.edited · id x.2))

theorem planned_eq_some {b : β} {g : World → World} :
    planned plan id w = some (b, g) ↔ ∃ e, plan id w = some (b, e) ∧ g = (World.edited · id e) := by
  simp only [planned, Option.map_eq_some_iff, Prod.exists, Prod.mk.injEq]
  constructor
  · rintro ⟨_, e, h, rfl, rfl⟩
    exact ⟨e, h, rfl⟩
  · rintro ⟨e, h, rfl⟩
    exact ⟨b, e, h, rfl, rfl⟩

theorem edited_config (id : StreamId) (e : Option Edit) : (w.edited id e).config = w.config := by
  cases e <;> rfl

theorem Edits.apart {b : β} {e : Option Edit} (h : Edits env f S I plan) (hw : I w) (hne : id ≠ j)
    (he : plan id w = some (b, e)) : plan j (w.edited id e) = plan j w := by
  refine h.own (edited_config id e) ?_
  cases e with
  | none => rfl
  | some e => exact apply_lookup_ne (h.names hw he) hne.symm

theorem Edits.comm {b b' : β} {e e' : Option Edit} (h : Edits env f S I plan) (hw : I w) (hne : id ≠ j)
    (he : plan id w = some (b, e)) (he' : plan j w = some (b', e')) :
    Rearranged ((w.edited id e).edited j e') ((w.edited j e').edited id e) := by
  have hself := Rearranged.refl (h.entries hw)
  cases e with
  | none => exact hself.edited j e'
  | some e =>
      cases e' with
      | none => exact hself.edited id (some e)
      | some e' => exact apply_comm (h.entries hw) (h.names hw he) (h.names hw he') hne

theorem Edits.planned (h : Edits env f S I plan) : Planned env f S I Rearranged (planned plan) where
  refl hw := .refl (h.entries hw)
  symm := .symm
  trans := .trans
  keeps := h.keeps
  runs := by
    intro id w b g hid hw hplan
    obtain ⟨e, he, rfl⟩ := planned_eq_some.mp hplan
    exact h.runs hid hw he
  only := by
    intro id w b v hid hw hok
    obtain ⟨e, he⟩ := h.only hid hw hok
    exact ⟨_, planned_eq_some.mpr ⟨e, he, rfl⟩⟩
  same := by
    intro id w v hrel
    have hlookup : v.book.streams.lookup id = w.book.streams.lookup id := by rw [hrel.streams]
    rw [SoroStream.planned, SoroStream.planned, h.own hrel.config hlookup]
  congr := by
    intro id w b g t u hplan hrel
    obtain ⟨e, -, rfl⟩ := planned_eq_some.mp hplan
    exact hrel.edited id e
  apart := by
    intro id j w b g hw hne hplan
    obtain ⟨e, he, rfl⟩ := planned_eq_some.mp hplan
    rw [SoroStream.planned, SoroStream.planned, h.apart hw hne he]
  comm := by
    intro id j w b g b' g' hw hne hplan hplan'
    obtain ⟨e, he, rfl⟩ := planned_eq_some.mp hplan
    obtain ⟨e', he', rfl⟩ := planned_eq_some.mp hplan'
    exact h.comm hw hne he he'

end

/-- Whether a token lets the contract pay depends on the transfer alone, once the amount is there. -/
def Unbiased (env : Env host) : Prop :=
  ∀ (b b' : Balances) (t : Transfer), t.payer = host.contract → t.amount ≤ b t.token t.payer →
    t.amount ≤ b' t.token t.payer → env.accepts b t = env.accepts b' t

theorem Unbiased.passes {t : Transfer} (h : Unbiased env) (hpayer : t.payer = host.contract)
    (hpay : Payable env w t) : Passes env t := by
  intro b _ hheld
  rw [← hpay.2.2]
  exact h b w.balances t hpayer hheld hpay.2.1

open Classical in
noncomputable def cancelPlan (env : Env host) (sender : Address) (id : StreamId) (w : World) :
    Option (Except StreamError Unit × Option Edit) :=
  match w.book.streams.lookup id with
  | none => some (.error .streamNotFound, none)
  | some s =>
      if s.sender ≠ sender then some (.error .notSender, none)
      else if ¬s.Live then some (.error .streamNotActive, none)
      else if ∀ t ∈ closingTransfers host s (flowed s env.now), Passes env t then
        some (.ok (), some ⟨closingTransfers host s (flowed s env.now), s, none⟩)
      else none

/-- The books are in order, and every stream is in the indexes of its parties. -/
def Ordered (env : Env host) (w : World) : Prop := Solvent host env.now w ∧ Entries w.book

theorem acted_ordered {made : List Stream} (h : Acted env made w v) (hw : Ordered env w) : Ordered env v :=
  ⟨acted_solvent h hw.1, acted_entries h hw.1.accounts hw.2⟩

theorem attempt_keeps {result : Except StreamError Unit} (hw : Ordered env w)
    (h : attempt (batchCancelItem sender id) env w = .ok result v) : Ordered env v := by
  rcases batchCancelItem_cases h with rfl | ⟨s, amount, hs, -, hlive, hearned, hcov, rfl⟩
  · exact hw
  · exact acted_ordered (closed_acted hs hlive (.inl hearned) hcov) hw

/-- An item that can be cancelled fails in no other way than by a token that refuses. -/
theorem batchCancelItem_passes (hunbiased : Unbiased env) (hw : Solvent host env.now w)
    (hs : w.book.streams.lookup id = some s) (hlive : s.Live) {result : Except StreamError Unit}
    (h : attempt (batchCancelItem s.sender id) env w = .ok result v) :
    ∀ t ∈ closingTransfers host s (flowed s env.now), Passes env t := by
  have hearned := (hw.accounts id s hs).2.earnedAt_eq_some env.now
  rcases attempt_ok.mp h with ⟨u, hok, -⟩ | ⟨e, herr, -⟩
  · obtain ⟨r, amount, hr, -, -, hamount, hcov, -⟩ := batchCancelItem_ok.mp hok
    obtain rfl := Option.some.inj (hs.symm.trans hr)
    obtain rfl := Option.some.inj (hearned.symm.trans hamount)
    intro t ht
    rcases List.mem_append.mp ht with ht | ht
    · have hpos := pos_of_mem_positive ht
      rw [mem_positive ht] at hpos ⊢
      exact hunbiased.passes rfl (hcov.share hpos)
    · have hpos := pos_of_mem_positive ht
      rw [mem_positive ht] at hpos ⊢
      exact hunbiased.passes rfl (hcov.refund hpos)
  · have havoids : Avoids (fun failure => failure = some e) env w (batchCancelItem s.sender id) := by
      refine avoids_read_bind (avoids_okOr_bind (fun hnone => ?_) fun r hr => ?_)
      · exact absurd (hnone.symm.trans hs) (Option.some_ne_none s).symm
      obtain rfl := Option.some.inj (hs.symm.trans hr)
      refine avoids_failIf_bind (fun hother => absurd rfl hother) fun _ => ?_
      refine avoids_failIf_bind (fun hdead => absurd hlive hdead) fun _ => ?_
      refine avoids_read_bind (avoids_okOr_bind (fun hnone => ?_) fun amount _ => ?_)
      · exact absurd (hnone.symm.trans hearned) (Option.some_ne_none _).symm
      refine avoids_bind (transferPositive_avoids (fun hnone => by cases hnone)) fun _ _ _ => ?_
      exact avoids_bind (transferPositive_avoids (fun hnone => by cases hnone)) fun _ _ _ => closeStream_avoids
    exact absurd herr (havoids.not_err rfl _)

theorem cancelPlan_runs {result : Except StreamError Unit} {e : Option Edit} (hw : Ordered env w)
    (h : cancelPlan env sender id w = some (result, e)) :
    attempt (batchCancelItem sender id) env w = .ok result (w.edited id e) := by
  rw [cancelPlan] at h
  cases hs : w.book.streams.lookup id with
  | none =>
      simp only [hs] at h
      cases h
      have hrefused : refusal sender (w.book.streams.lookup id) = some .streamNotFound := by rw [hs, refusal]
      exact attempt_of_err (batchCancelItem_refused env hrefused)
  | some s =>
      simp only [hs] at h
      split at h
      · rename_i hsender
        cases h
        have hrefused : refusal sender (w.book.streams.lookup id) = some .notSender := by
          rw [hs, refusal, if_pos hsender]
        exact attempt_of_err (batchCancelItem_refused env hrefused)
      · rename_i hsender
        split at h
        · rename_i hlive
          cases h
          have hrefused : refusal sender (w.book.streams.lookup id) = some .streamNotActive := by
            rw [hs, refusal, if_neg hsender, if_pos hlive]
          exact attempt_of_err (batchCancelItem_refused env hrefused)
        · rename_i hlive
          split at h
          · rename_i hpasses
            cases h
            obtain ⟨-, hsound⟩ := hw.1.accounts id s hs
            have hcov := covered_of_passes hw.1 hs (not_not.mp hlive) hpasses (flowed_nonneg hsound.rate env.now)
              (hsound.toAccounted.flowed_le_remaining env.now)
            exact attempt_of_ok (batchCancelItem_ok.mpr
              ⟨s, _, hs, not_not.mp hsender, not_not.mp hlive, hsound.earnedAt_eq_some env.now, hcov, rfl⟩)
          · cases h

theorem cancelPlan_only (hunbiased : Unbiased env) {result : Except StreamError Unit} (hw : Ordered env w)
    (h : attempt (batchCancelItem sender id) env w = .ok result v) :
    ∃ e, cancelPlan env sender id w = some (result, e) := by
  suffices hsome : ∃ result' e, cancelPlan env sender id w = some (result', e) by
    obtain ⟨result', e, he⟩ := hsome
    obtain ⟨rfl, -⟩ := Outcome.ok.inj ((cancelPlan_runs hw he).symm.trans h)
    exact ⟨e, he⟩
  rw [cancelPlan]
  cases hs : w.book.streams.lookup id with
  | none => exact ⟨_, _, rfl⟩
  | some s =>
      by_cases hsender : s.sender = sender
      · subst hsender
        by_cases hlive : s.Live
        · have hpasses := batchCancelItem_passes hunbiased hw.1 hs hlive h
          dsimp only
          rw [if_neg (not_not.mpr rfl), if_neg (not_not.mpr hlive), if_pos hpasses]
          exact ⟨_, _, rfl⟩
        · dsimp only
          rw [if_neg (not_not.mpr rfl), if_pos hlive]
          exact ⟨_, _, rfl⟩
      · dsimp only
        rw [if_pos hsender]
        exact ⟨_, _, rfl⟩

theorem cancel_edits (hunbiased : Unbiased env) (sender : Address) :
    Edits env (fun id => attempt (batchCancelItem sender id)) (fun _ => True) (Ordered env)
      (cancelPlan env sender) where
  entries hw := hw.2
  own := by
    rintro id w v - hlookup
    rw [cancelPlan, cancelPlan, hlookup]
  names := by
    rintro id w result e - h s hs
    rw [cancelPlan] at h
    split at h
    · cases h
    · split at h
      · cases h
      · split at h
        · cases h
        · split at h
          · cases h
            exact absurd hs.symm (Option.some_ne_none s)
          · cases h
  keeps _ hw := attempt_keeps hw
  runs := by
    intro id w result e _ hw h
    have hok := cancelPlan_runs hw h
    exact ⟨_, hok, .refl (attempt_keeps hw hok).2⟩
  only _ hw := cancelPlan_only hunbiased hw

def withdrawEdit (host : Host) (w : World) (s : Stream) (claim : Int) (now : Nat) : Edit where
  transfers := claimedTransfers host w s claim ++
    if now < s.endTime then [] else positive (dustTransfer host (s.checkpoint claim now))
  record := s.checkpoint claim now
  out := if now < s.endTime then some (s.checkpoint claim now) else none

open Classical in
noncomputable def withdrawPlan (env : Env host) (recipient : Address) (id : StreamId) (w : World) :
    Option (Int × Option Edit) :=
  match w.book.streams.lookup id with
  | none => none
  | some s =>
      if s.recipient = recipient ∧ s.status = .active ∧ s.lockUntil ≤ env.now ∧
          FeeFits w recipient (flowed s env.now) ∧
          ∀ t ∈ (withdrawEdit host w s (flowed s env.now) env.now).transfers, Passes env t then
        some (flowed s env.now, some (withdrawEdit host w s (flowed s env.now) env.now))
      else none

theorem withdrawPlan_eq_some {e : Option Edit} :
    withdrawPlan env recipient id w = some (claim, e) ↔
      ∃ s, w.book.streams.lookup id = some s ∧ s.recipient = recipient ∧ s.status = .active ∧ s.lockUntil ≤ env.now ∧
        FeeFits w recipient claim ∧ (∀ t ∈ (withdrawEdit host w s claim env.now).transfers, Passes env t) ∧
        claim = flowed s env.now ∧ e = some (withdrawEdit host w s claim env.now) := by
  rw [withdrawPlan]
  constructor
  · intro h
    split at h
    · cases h
    · rename_i s hs
      split at h
      · rename_i hguards
        cases h
        obtain ⟨hrecipient, hactive, hlock, hfits, hpasses⟩ := hguards
        exact ⟨s, hs, hrecipient, hactive, hlock, hfits, hpasses, rfl, rfl⟩
      · cases h
  · rintro ⟨s, hs, hrecipient, hactive, hlock, hfits, hpasses, rfl, rfl⟩
    simp only [hs]
    rw [if_pos ⟨hrecipient, hactive, hlock, hfits, hpasses⟩]

theorem settlement_unrenewed {v : World} {now : Nat} {looks : Bool} {out : Option Stream} {us : List Transfer}
    (h : Settlement env v now looks s out us) (hauto : s.autoRenew = false) :
    out = (if now < s.endTime then some s else none) ∧
      us = if now < s.endTime then [] else positive (dustTransfer host s) := by
  cases h with
  | running hend => rw [if_pos hend, if_pos hend]; exact ⟨rfl, rfl⟩
  | renewed _ _ hrenews _ _ _ _ => exact Bool.noConfusion (hauto.symm.trans hrenews)
  | lapsed _ _ hrenews _ _ _ => exact Bool.noConfusion (hauto.symm.trans hrenews)
  | finished hend _ _ _ => rw [if_neg (not_lt.mpr hend), if_neg (not_lt.mpr hend)]; exact ⟨rfl, rfl⟩

def NoneRenew (ids : List StreamId) (w : World) : Prop :=
  ∀ id ∈ ids, ∀ s, w.book.streams.lookup id = some s → s.autoRenew = false

theorem item_keeps (hauth : env.auths recipient = true) (hw : Ordered env w ∧ NoneRenew ids w)
    (h : batchWithdrawItem recipient id env w = .ok claim v) : Ordered env v ∧ NoneRenew ids v := by
  obtain ⟨s, w₁, out, us, -, hwd, rfl⟩ := batchWithdrawItem_ok hauth h
  refine ⟨acted_ordered (withdrawal_acted hwd) hw.1, ?_⟩
  intro j hj r hr
  obtain ⟨q, hq, -, -, hauto⟩ := withdrawal_stored hwd (hw.1.1.accounts id s hwd.stored).1 hr
  rw [hauto]
  exact hw.2 j hj q hq

theorem item_runs {e : Option Edit} (hquiet : Quiet env) (hauth : env.auths recipient = true) (hmem : id ∈ ids)
    (hw : Ordered env w ∧ NoneRenew ids w) (h : withdrawPlan env recipient id w = some (claim, e)) :
    ∃ v, batchWithdrawItem recipient id env w = .ok claim v ∧ Rearranged v (w.edited id e) := by
  obtain ⟨s, hs, rfl, hactive, hlock, hfits, hpasses, rfl, rfl⟩ := withdrawPlan_eq_some.mp h
  obtain ⟨⟨hsolvent, hentries⟩, hrenew⟩ := hw
  obtain ⟨-, hsound⟩ := hsolvent.accounts id s hs
  have hauto := hrenew id hmem s hs
  have hpos := flowed_nonneg hsound.rate env.now
  have hle := hsound.toAccounted.flowed_le_remaining env.now
  have hpot := hsolvent.remaining_le hs (.inl hactive)
  have hcovered : s.totalWithdrawn + flowed s env.now ≤ s.deposit := by
    rw [Stream.remaining] at hle
    omega
  have hclaimPasses : ∀ t ∈ claimedTransfers host w s (flowed s env.now), Passes env t :=
    fun t ht => hpasses t (List.mem_append_left _ ht)
  have hdustPasses : s.endTime ≤ env.now →
      ∀ t ∈ positive (dustTransfer host (s.checkpoint (flowed s env.now) env.now)), Passes env t := by
    intro hend t ht
    exact hpasses t (List.mem_append_right _ (by rwa [if_neg (not_lt.mpr hend)]))
  -- the claim block of the single call, and then that of the batch beside it
  have hblock := claimBlock_available hsolvent.fees hclaimPasses hpos (hle.trans hpot) hcovered
    hsound.withdrawn_nonneg hsound.deposit_max hfits
  obtain ⟨_, hblock', cells, rfl⟩ := claimBlock_beside hblock (.refl w)
  rw [hquiet.claimedInBatch] at hblock'
  obtain ⟨-, -, hmoved⟩ := batchClaim_ok hblock'
  obtain ⟨out, us, hsettled⟩ := settlement_available false hdustPasses hsolvent hs hactive hauto (.inl rfl) hmoved
  obtain ⟨rfl, rfl⟩ := settlement_unrenewed hsettled hauto
  have hitem := batchWithdrawItem_parts.mpr ⟨s, _, hs, rfl, hactive, hlock, hsound.earnedAt_eq_some env.now, hblock',
    settleStream_ok.mpr ⟨_, _, hsettled, rfl⟩⟩
  have hnext := (item_keeps hauth ⟨⟨hsolvent, hentries⟩, hrenew⟩ hitem).1.2
  refine ⟨_, hitem, .of_book hnext rfl rfl rfl ?_⟩
  funext token a
  have hend : (s.checkpoint (flowed s env.now) env.now).endTime = s.endTime := rfl
  simp only [World.edited, Option.elim, Edit.apply, withdrawEdit, withBook_balances, pay_balances, spent_append,
    received_append, hend]
  omega

theorem payClaim_payable {hook : FeeHook host} {amount : Int} (h : payClaim hook s claim env w = .ok amount v) :
    ∀ t ∈ claimTransfers host w s claim, ∃ u, Payable env u t := by
  obtain ⟨-, hshare, hfee, -, -⟩ := payClaim_ok.mp h
  intro t ht
  rcases List.mem_append.mp ht with ht | ht
  · have hpos := pos_of_mem_positive ht
    rw [mem_positive ht] at hpos ⊢
    exact ⟨_, hshare hpos⟩
  · exact ⟨_, hfee t ht⟩

theorem claimBlock_payable {hook : FeeHook host} {after : Int → Contract host Unit} {s' : Stream}
    (h : claimBlock hook after s claim env w = .ok s' v) :
    ∀ t ∈ claimedTransfers host w s claim, ∃ u, Payable env u t := by
  obtain ⟨-, ⟨hpos, -, amount, u, hpay, -⟩ | ⟨hnone, -⟩⟩ := claimBlock_cases h
  · rw [claimedTransfers, if_pos hpos]
    exact payClaim_payable hpay
  · intro t ht
    rw [claimedTransfers, if_neg hnone] at ht
    exact absurd ht List.not_mem_nil

theorem item_only (hunbiased : Unbiased env) (hauth : env.auths recipient = true)
    (hw : Ordered env w ∧ NoneRenew ids w) (hmem : id ∈ ids)
    (h : batchWithdrawItem recipient id env w = .ok claim v) :
    ∃ e, withdrawPlan env recipient id w = some (claim, e) := by
  obtain ⟨s, w₁, hs, rfl, hactive, hlock, hclaim, hblock, hsettle⟩ := batchWithdrawItem_parts.mp h
  obtain ⟨-, hsound⟩ := hw.1.1.accounts id s hs
  have hflow : claim = flowed s env.now := earnedAt_eq hclaim
  have hfits : FeeFits w s.recipient claim := by
    by_cases hpos : 0 < claim
    · exact claimBlock_fits hpos hblock
    · intro _
      have hzero : claim = 0 := le_antisymm (not_lt.mp hpos) (hflow ▸ flowed_nonneg hsound.rate env.now)
      rw [hzero, zero_mul]
      decide
  refine ⟨_, withdrawPlan_eq_some.mpr ⟨s, hs, rfl, hactive, hlock, hfits, ?_, hflow, rfl⟩⟩
  intro t ht
  rcases List.mem_append.mp ht with ht | ht
  · obtain ⟨u, hpay⟩ := claimBlock_payable hblock t ht
    exact hunbiased.passes (claimedTransfers_paid t ht) hpay
  · obtain ⟨out, us, hsettled, -⟩ := settleStream_ok.mp hsettle
    cases hsettled with
    | running hend => rw [if_pos (show env.now < s.endTime from hend)] at ht; simp at ht
    | renewed _ _ hrenews _ _ _ _ => exact Bool.noConfusion ((hw.2 id hmem s hs).symm.trans hrenews)
    | lapsed _ _ hrenews _ _ _ => exact Bool.noConfusion ((hw.2 id hmem s hs).symm.trans hrenews)
    | finished hend _ _ hpay =>
        rw [if_neg (not_lt.mpr (show s.endTime ≤ env.now from hend))] at ht
        have hpos := pos_of_mem_positive ht
        rw [mem_positive ht] at hpos ⊢
        exact hunbiased.passes rfl (hpay hpos)

theorem withdraw_edits (hunbiased : Unbiased env) (hquiet : Quiet env) (hauth : env.auths recipient = true)
    (ids : List StreamId) : Edits env (batchWithdrawItem recipient) (· ∈ ids)
      (fun w => Ordered env w ∧ NoneRenew ids w) (withdrawPlan env recipient) where
  entries hw := hw.1.2
  own := by
    intro id w v hconfig hlookup
    have hfits : ∀ claim, FeeFits v recipient claim ↔ FeeFits w recipient claim := by
      intro claim
      simp only [FeeFits, Storage.getProtocolFee, Storage.isFeeExempt, hconfig]
    have hedit : ∀ s claim, withdrawEdit host v s claim env.now = withdrawEdit host w s claim env.now := by
      intro s claim
      rw [withdrawEdit, withdrawEdit, claimedTransfers_config hconfig]
    apply Option.ext
    rintro ⟨claim, e⟩
    simp only [withdrawPlan_eq_some, hlookup, hfits, hedit]
  names := by
    intro id w claim e hw h s' hs'
    obtain ⟨s, hs, -, -, -, -, -, -, he⟩ := withdrawPlan_eq_some.mp h
    obtain rfl := Option.some.inj he
    simp only [withdrawEdit] at hs'
    split at hs'
    · obtain rfl := Option.some.inj hs'
      exact (hw.1.1.accounts id s hs).1
    · exact absurd hs'.symm (Option.some_ne_none s')
  keeps _ hw := item_keeps hauth hw
  runs hmem hw := item_runs hquiet hauth hmem hw
  only hmem hw := item_only hunbiased hauth hw hmem

/-- The batch does the same on both lists: it succeeds on one if and only if it does on the
other, each ID then has the same result, and the two states differ in the order of index
entries alone. -/
structure OrderFree {β : Type} (env : Env host) (w : World) (batch : List StreamId → Contract host (List β))
    (ids ids' : List StreamId) : Prop where
  succeeds : (∃ bs v, batch ids env w = .ok bs v) ↔ ∃ bs v, batch ids' env w = .ok bs v
  alike : ∀ {bs bs' v v'}, batch ids env w = .ok bs v → batch ids' env w = .ok bs' v' →
    (ids.zip bs).Perm (ids'.zip bs') ∧ Rearranged v v'

theorem orderFree_of_forward {β : Type} {batch : List StreamId → Contract host (List β)} {P : List StreamId → Prop}
    (hP : ∀ {l l' : List StreamId}, l.Perm l' → P l → P l')
    (hforward : ∀ {l l' bs v}, l.Perm l' → P l → batch l env w = .ok bs v →
      ∃ bs' v', batch l' env w = .ok bs' v' ∧ Rearranged v v' ∧ (l.zip bs).Perm (l'.zip bs'))
    (hperm : ids.Perm ids') (hids : P ids) : OrderFree env w batch ids ids' where
  succeeds := by
    constructor
    · rintro ⟨bs, v, hok⟩
      obtain ⟨bs', v', hok', -⟩ := hforward hperm hids hok
      exact ⟨bs', v', hok'⟩
    · rintro ⟨bs, v, hok⟩
      obtain ⟨bs', v', hok', -⟩ := hforward hperm.symm (hP hperm hids) hok
      exact ⟨bs', v', hok'⟩
  alike := by
    intro bs bs' v v' hok hok'
    obtain ⟨bs'', v'', hagain, hrel, hzip⟩ := hforward hperm hids hok
    obtain ⟨rfl, rfl⟩ := Outcome.ok.inj (hagain.symm.trans hok')
    exact ⟨hzip, hrel⟩

theorem batchCancel_orderFree (hw : Ordered env w) (hunbiased : Unbiased env) (sender : Address)
    (hperm : ids.Perm ids') (hdistinct : ids.Nodup) :
    OrderFree env w (fun l => batchCancelStream l sender) ids ids' := by
  refine orderFree_of_forward (P := List.Nodup) (fun h hl => h.nodup_iff.mp hl) ?_ hperm hdistinct
  intro l l' results v h hl hok
  have hguards : requireAuth sender env w = .ok () w ∧
      failIf (l = [] ∨ 20 < l.length) StreamError.batchLengthMismatch env w = .ok () w := by
    simp only [batchCancelStream, bind_ok, requireAuth_ok, failIf_ok, and_assoc, exists_and_left, exists_eq_left',
      exists_const] at hok
    obtain ⟨hauth, hsized, -⟩ := hok
    exact ⟨requireAuth_ok.mpr ⟨hauth, rfl⟩, failIf_ok.mpr ⟨hsized, rfl⟩⟩
  have hsame : (l' = [] ∨ 20 < l'.length) ↔ (l = [] ∨ 20 < l.length) := by
    rw [← List.length_eq_zero_iff, ← List.length_eq_zero_iff, h.length_eq]
  have hsized : failIf (l' = [] ∨ 20 < l'.length) StreamError.batchLengthMismatch env w = .ok () w :=
    failIf_ok.mpr ⟨mt hsame.mp (failIf_ok.mp hguards.2).1, rfl⟩
  obtain ⟨results', v', hitems, hrel, hzip⟩ := (cancel_edits hunbiased sender).planned.each_perm h
    (fun _ _ => trivial) hl hw (batchCancelStream_ok hok).2
  refine ⟨results', v', ?_, hrel, hzip⟩
  rw [batchCancelStream, bind_apply hguards.1, bind_apply hsized]
  exact hitems

theorem batchWithdraw_orderFree (hw : Ordered env w) (hunbiased : Unbiased env) (hquiet : Quiet env)
    (recipient : Address) (hperm : ids.Perm ids') (hdistinct : ids.Nodup) (hrenew : NoneRenew ids w) :
    OrderFree env w (fun l => batchWithdraw l recipient) ids ids' := by
  refine orderFree_of_forward (P := fun l => l.Nodup ∧ NoneRenew l w) ?_ ?_ hperm ⟨hdistinct, hrenew⟩
  · rintro l l' h ⟨hl, hnone⟩
    exact ⟨h.nodup_iff.mp hl, fun id hid => hnone id (h.mem_iff.mpr hid)⟩
  · rintro l l' claims v h ⟨hl, hnone⟩ hok
    obtain ⟨hrun, hauth, hitems⟩ := batchWithdraw_ok hok
    have hopen : requireRunning env w = .ok () (w.awake env.now) := requireRunning_ok.mpr ⟨hrun, rfl⟩
    have hsigned : requireAuth recipient env (w.awake env.now) = .ok () (w.awake env.now) :=
      requireAuth_ok.mpr ⟨hauth, rfl⟩
    have hawake : Ordered env (w.awake env.now) := ⟨⟨hw.1.accounts, hw.1.fees, hw.1.covered⟩, hw.2⟩
    obtain ⟨claims', v', hitems', hrel, hzip⟩ := (withdraw_edits hunbiased hquiet hauth l).planned.each_perm h
      (fun _ hid => hid) hl ⟨hawake, hnone⟩ hitems
    refine ⟨claims', v', ?_, hrel, hzip⟩
    rw [batchWithdraw, bind_apply hopen, bind_apply hsigned]
    exact hitems'

/-- The order in which a batch names its streams, each once, makes no difference. -/
theorem batch_order_free (env : Env host) (h : Reached host c) (hnow : c.now ≤ env.now) (hunbiased : Unbiased env)
    (hdistinct : ids.Nodup) (hperm : ids.Perm ids') :
    (∀ sender, OrderFree env c.world (fun l => batchCancelStream l sender) ids ids') ∧
    (Quiet env → (∀ id ∈ ids, ∀ s, c.world.book.streams.lookup id = some s → s.autoRenew = false) →
      ∀ recipient, OrderFree env c.world (fun l => batchWithdraw l recipient) ids ids') := by
  have hw : Ordered env c.world := ⟨aside_solvent hnow (.refl _) (reached_solvent h), reached_entries h⟩
  refine ⟨fun sender => batchCancel_orderFree hw hunbiased sender hperm hdistinct, ?_⟩
  intro hquiet hrenew recipient
  exact batchWithdraw_orderFree hw hunbiased hquiet recipient hperm hdistinct hrenew

namespace Sample

def twins : Chain := genesis.after [opening 0 0, call [2] 10 (.createStream { terms 0 0 with nonce := 1 })]

theorem signed_quiet (parties : List Nat) (time : U64) : Quiet (signed parties time) := by
  rintro a f b x b' - h
  cases h

end Sample

theorem sample_batch_order_free :
    OrderFree (Sample.signed [2, 3] 1010) Sample.twins.world (fun l => batchCancelStream l (Sample.party 2))
      [Sample.streamId, 2310001] [2310001, Sample.streamId] ∧
    OrderFree (Sample.signed [2, 3] 1010) Sample.twins.world (fun l => batchWithdraw l (Sample.party 3))
      [Sample.streamId, 2310001] [2310001, Sample.streamId] := by
  have hreached : Reached Sample.site Sample.twins := reached_after Sample.genesis_fresh (by decide)
  obtain ⟨hcancel, hwithdraw⟩ := batch_order_free (Sample.signed [2, 3] 1010) hreached (by decide)
    (fun _ _ _ _ _ _ => rfl) (show [Sample.streamId, 2310001].Nodup by decide)
    (List.Perm.swap 2310001 Sample.streamId [])
  refine ⟨hcancel _, hwithdraw (Sample.signed_quiet _ _) ?_ _⟩
  have hrenew : ∀ id ∈ [Sample.streamId, 2310001],
      (Sample.twins.world.book.streams.lookup id).map Stream.autoRenew = some false := by decide +kernel
  intro id hid s hs
  simpa [hs] using hrenew id hid

end SoroStream
