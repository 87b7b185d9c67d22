import SoroStream.Accounting
import SoroStream.Lib.Lockstep

namespace SoroStream

open Lib Lib.Rollback Lib.Rollback.Prog Lib.Runs Contract

variable {host : Host} {env : Env host} {w w' : World} {id : StreamId} {s s' : Stream} {d p now : Nat}
  {m : Streams}

def Stream.later (s : Stream) (d : Nat) : Stream :=
  { s with
    startTime := s.startTime + d
    cliffTime := s.cliffTime + d
    lockUntil := s.lockUntil + d
    endTime := s.endTime + d
    lastWithdrawTime := s.lastWithdrawTime + d }

structure Stream.FitsLater (s : Stream) (d : Nat) : Prop where
  start : s.startTime + d ≤ u64Max
  cliff : s.cliffTime + d ≤ u64Max
  lock : s.lockUntil + d ≤ u64Max
  stop : s.endTime + d ≤ u64Max
  mark : s.lastWithdrawTime + d ≤ u64Max

instance (s : Stream) (d : Nat) : Decidable (s.FitsLater d) :=
  decidable_of_iff (s.startTime + d ≤ u64Max ∧ s.cliffTime + d ≤ u64Max ∧ s.lockUntil + d ≤ u64Max ∧
      s.endTime + d ≤ u64Max ∧ s.lastWithdrawTime + d ≤ u64Max)
    ⟨fun ⟨h₁, h₂, h₃, h₄, h₅⟩ => ⟨h₁, h₂, h₃, h₄, h₅⟩, fun h => ⟨h.start, h.cliff, h.lock, h.stop, h.mark⟩⟩

def laterAt (id : StreamId) (d : Nat) (m : Streams) : Streams :=
  match m.lookup id with
  | some s => m.insert id (s.later d)
  | none => m

theorem lookup_laterAt (j : StreamId) :
    (laterAt id d m).lookup j = if j = id then (m.lookup id).map (·.later d) else m.lookup j := by
  unfold laterAt
  by_cases hj : j = id
  · subst hj
    cases hs : m.lookup j with
    | none => simp [hs]
    | some s => simp
  · cases hs : m.lookup id with
    | none => simp [hj]
    | some s => simp [hj, Finmap.lookup_insert_of_ne]

theorem laterAt_insert : laterAt id d (m.insert id s) = (laterAt id d m).insert id (s.later d) := by
  apply Finmap.ext_lookup
  intro j
  rw [lookup_laterAt]
  by_cases hj : j = id
  · subst hj
    simp
  · simp [hj, Finmap.lookup_insert_of_ne, lookup_laterAt]

theorem laterAt_erase : laterAt id d (m.erase id) = (laterAt id d m).erase id := by
  apply Finmap.ext_lookup
  intro j
  rw [lookup_laterAt]
  by_cases hj : j = id
  · subst hj
    simp
  · simp [hj, Finmap.lookup_erase_ne, lookup_laterAt]

def Book.later (b : Book) (id : StreamId) (d : Nat) : Book := { b with streams := laterAt id d b.streams }

def World.later (w : World) (id : StreamId) (d : Nat) (cells : PauseCells) : World :=
  { w with book := w.book.later id d, pause := cells }

def Env.later (env : Env host) (d : Nat) : Env host := { env with timestamp := Fin.ofNat _ (env.now + d) }

theorem now_later (hfit : env.now + d ≤ u64Max) : (env.later d).now = env.now + d :=
  Nat.mod_eq_of_lt (Nat.lt_succ_of_le hfit)

theorem clock_later (hrun : s.status ≠ .paused) : (s.later d).clock (now + d) = s.clock now + d := by
  have hlater : (s.later d).status ≠ .paused := hrun
  rw [Stream.clock, Stream.clock, if_neg hrun, if_neg hlater]

theorem elapsed_later (a b c d : Nat) :
    (if a + d < b + d then a + d else b + d) - (c + d) = (if a < b then a else b) - c := by
  rw [if_lt_eq_min, if_lt_eq_min, Nat.add_min_add_right, Nat.add_sub_add_right]

theorem computeEarned_later (rate : Int) (a b c d : Nat) :
    VestingMath.computeEarned rate (a + d) (b + d) (c + d) = VestingMath.computeEarned rate a b c := by
  simp only [VestingMath.computeEarned, elapsed_later]

theorem computeClaimable_later (rate : Int) (a b c e d : Nat) :
    VestingMath.computeClaimable rate (a + d) (b + d) (c + d) (e + d) =
      VestingMath.computeClaimable rate a b c e := by
  simp only [VestingMath.computeClaimable, elapsed_later]
  simp only [Nat.add_lt_add_iff_right]

def PauseCells.Running (cells : PauseCells) (p : Nat) : Prop := ∀ t, p ≤ t → cells.pausedAt t = false

theorem running_of_not_paused {cells : PauseCells} (h : cells.pausedAt p = false) : cells.Running p := by
  intro t ht
  simp only [PauseCells.pausedAt, Bool.and_eq_false_iff, Bool.not_eq_false', decide_eq_true_eq] at h ⊢
  rcases h with h | ⟨hpos, hle⟩
  · exact .inl h
  · exact .inr ⟨hpos, hle.trans ht⟩

theorem PauseCells.Running.settle {cells : PauseCells} (h : cells.Running p) : (cells.settle now).Running p := by
  unfold PauseCells.settle
  split
  · intro t _
    rfl
  · exact h

def Steady (id : StreamId) (m : Streams) : Prop := ∀ s, m.lookup id = some s → s.id = id ∧ s.status ≠ .paused

/-- The second run: the stream is later by `d`, and the pause cells, which may have been
cleared already, let calls through from `p` on. -/
def Shifted (id : StreamId) (d p : Nat) (w w' : World) : Prop :=
  Steady id w.book.streams ∧ w.pause.Running p ∧ ∃ cells, PauseCells.Running cells p ∧ w' = w.later id d cells

def Outgrown (id : StreamId) (d : Nat) (w : World) : Prop :=
  ∃ s, w.book.streams.lookup id = some s ∧ ¬s.FitsLater d

abbrev InStep (env : Env host) (id : StreamId) (d p : Nat) {α β : Type} (V : α → β → Prop) (x : Contract host α)
    (y : Contract host β) : Prop :=
  Lockstep env (env.later d) (Shifted id d p) (Shifted id d p) V x y

abbrev InStepUnless (env : Env host) (id : StreamId) (d p : Nat) {α β : Type} (V : α → β → Prop)
    (x : Contract host α) (y : Contract host β) : Prop :=
  LockstepUnless (Outgrown id d) env (env.later d) (Shifted id d p) (Shifted id d p) V x y

theorem inStep_read {α : Type} {f : Env host → World → α}
    (hf : ∀ w cells, f env w = f (env.later d) (w.later id d cells)) :
    InStep env id d p Eq (read f : Contract host α) (read f) := by
  apply lockstep_read
  rintro w _ ⟨-, -, cells, -, rfl⟩
  exact hf w cells

theorem inStep_update {f f' : Env host → World → World}
    (hf : ∀ w cells, f' (env.later d) (w.later id d cells) = (f env w).later id d cells)
    (hpause : ∀ w, (f env w).pause = w.pause)
    (hsteady : ∀ w, Steady id w.book.streams → Steady id (f env w).book.streams) :
    InStep env id d p Eq (update f : Contract host Unit) (update f') := by
  apply lockstep_update
  rintro w _ ⟨hw, hrun, cells, hcells, rfl⟩
  refine ⟨hsteady w hw, ?_, cells, hcells, hf w cells⟩
  rw [hpause]
  exact hrun

theorem inStep_timestamp (hfit : env.now + d ≤ u64Max) {P : World → World → Prop} :
    Lockstep env (env.later d) P P (fun n n' => n = env.now ∧ n' = env.now + d) timestamp timestamp :=
  lockstep_read fun _ _ _ => ⟨rfl, now_later hfit⟩

theorem inStep_requireAuth {P : World → World → Prop} {a : Address} :
    Lockstep env (env.later d) P P Eq (requireAuth a) (requireAuth a) := by
  refine lockstep_seq (lockstep_read fun _ _ _ => rfl) fun granted => ?_
  exact lockstep_haltIf Iff.rfl

theorem inStep_requireRunning {P Q : World → World → Prop}
    (hP : ∀ w w', P w w' → w.pause.pausedAt env.now = false ∧ w'.pause.pausedAt (env.later d).now = false ∧
      Q (w.awake env.now) (w'.awake (env.later d).now)) :
    Lockstep env (env.later d) P Q Eq requireRunning requireRunning := by
  intro w w' hw
  obtain ⟨hrun, hrun', hQ⟩ := hP w w' hw
  have hfirst : requireRunning env w = .ok () (w.awake env.now) := requireRunning_ok.mpr ⟨hrun, rfl⟩
  have hsecond : requireRunning (env.later d) w' = .ok () (w'.awake (env.later d).now) :=
    requireRunning_ok.mpr ⟨hrun', rfl⟩
  rw [hfirst, hsecond]
  exact .ok rfl hQ

theorem Shifted.awake (hw : Shifted id d p w w') (hp : p ≤ now) (t : Nat) :
    w.pause.pausedAt now = false ∧ w'.pause.pausedAt (now + t) = false ∧
      Shifted id d p (w.awake now) (w'.awake (now + t)) := by
  obtain ⟨hsteady, hrun, cells, hcells, rfl⟩ := hw
  exact ⟨hrun now hp, hcells _ (by omega), hsteady, hrun.settle, _, hcells.settle, rfl⟩

theorem inStep_gate (hp : p ≤ env.now) (hfit : env.now + d ≤ u64Max) :
    InStep env id d p Eq requireRunning requireRunning := by
  refine inStep_requireRunning fun w w' hw => ?_
  rw [now_later hfit]
  exact hw.awake hp d

section

variable {t : Transfer} {a : Address}

theorem inStep_transfer : InStep env id d p Eq (transfer t) (transfer t) := by
  refine lockstep_seq (inStep_read fun _ _ => rfl) fun payable => ?_
  refine lockstep_seq (lockstep_haltIf Iff.rfl) fun _ => ?_
  exact inStep_update (fun _ _ => rfl) (fun _ => rfl) fun _ h => h

theorem inStep_transferPositive : InStep env id d p Eq (transferPositive t) (transferPositive t) :=
  lockstep_ite Iff.rfl inStep_transfer (lockstep_pure rfl)

theorem inStep_callContract {f : String} {body : Contract host Int} (hbody : InStep env id d p Eq body body) :
    InStep env id d p Eq (callContract a f body) (callContract a f body) := by
  refine lockstep_ite Iff.rfl lockstep_halt (lockstep_ite Iff.rfl hbody ?_)
  refine lockstep_seq (inStep_read fun _ _ => rfl) fun answer => ?_
  refine lockstep_seq (lockstep_okOrHalt (rel_of_eq rfl)) fun ⟨v, b⟩ => ?_
  refine lockstep_seq (inStep_update (fun _ _ => rfl) (fun _ => rfl) fun _ h => h) fun _ => ?_
  exact lockstep_pure rfl

theorem inStep_notifyRecipient : InStep env id d p Eq (notifyRecipient a) (notifyRecipient a) := by
  apply lockstep_tryCall (V := Eq)
  refine lockstep_seq (inStep_callContract lockstep_halt) fun _ => ?_
  exact lockstep_pure rfl

theorem inStep_feeAmount {claim : Int} : InStep env id d p Eq (feeAmount a claim) (feeAmount a claim) := by
  refine lockstep_seq (inStep_read fun _ _ => rfl) fun feeBps => ?_
  refine lockstep_seq (inStep_read fun _ _ => rfl) fun exempt => ?_
  refine lockstep_ite Iff.rfl ?_ (lockstep_pure rfl)
  refine lockstep_seq (lockstep_okOr (rel_of_eq rfl)) fun product => ?_
  exact lockstep_pure rfl

theorem inStep_payClaim {claim : Int} :
    InStep env id d p Eq (payClaim noHook s claim) (payClaim noHook (s.later d) claim) := by
  refine lockstep_seq inStep_feeAmount fun fee => ?_
  refine lockstep_seq inStep_transferPositive fun _ => ?_
  refine lockstep_ite Iff.rfl ?_ (lockstep_pure rfl)
  refine lockstep_seq (inStep_read fun _ _ => rfl) fun treasury => ?_
  cases treasury with
  | none => exact lockstep_pure rfl
  | some treasury =>
      refine lockstep_seq inStep_transfer fun _ => ?_
      refine lockstep_seq (lockstep_pure rfl) fun _ => ?_
      exact lockstep_pure rfl

end

section

variable {a : Address} {e : StreamError}

def Delayed (id : StreamId) (d : Nat) (s s' : Stream) : Prop := s' = s.later d ∧ s.id = id ∧ s.status ≠ .paused

theorem delayed_load (hw : Shifted id d p w w') :
    Option.Rel (fun s s' => Delayed id d s s' ∧ w.book.streams.lookup id = some s) (Storage.loadStream id w)
      (Storage.loadStream id w') := by
  obtain ⟨hsteady, -, cells, -, rfl⟩ := hw
  have hlater : Storage.loadStream id (w.later id d cells) = (w.book.streams.lookup id).map (·.later d) :=
    (lookup_laterAt id).trans (if_pos rfl)
  rw [hlater, Storage.loadStream]
  cases hs : w.book.streams.lookup id with
  | none => exact .none
  | some s => exact .some ⟨⟨rfl, hsteady s hs⟩, rfl⟩

theorem inStep_load : InStep env id d p (Option.Rel (Delayed id d))
    (ask (Storage.loadStream id)) (ask (Storage.loadStream id)) :=
  lockstep_read fun _ _ hw => rel_imp (delayed_load hw) fun _ _ h => h.1

theorem inStep_saveStream (hid : s.id = id) (hrun : s.status ≠ .paused) :
    InStep env id d p Eq (Storage.saveStream s) (Storage.saveStream (s.later d)) := by
  subst hid
  refine inStep_update ?_ (fun _ => rfl) ?_
  · intro w cells
    simp only [World.later, Book.later, laterAt_insert]
    rfl
  · intro w _ r hr
    obtain rfl := Option.some.inj ((Finmap.lookup_insert _).symm.trans hr)
    exact ⟨rfl, hrun⟩

theorem inStep_index {f : Book → Book} (hf : ∀ b, f (b.later id d) = (f b).later id d)
    (hstreams : ∀ b, (f b).streams = b.streams) : InStep env id d p Eq (setBook f) (setBook f) := by
  refine inStep_update (fun w cells => ?_) (fun _ => rfl) fun w hw => ?_
  · simp only [World.later, hf]
  · rw [hstreams]
    exact hw

theorem inStep_closeStream : InStep env id d p Eq (closeStream id s) (closeStream id (s.later d)) := by
  have hremove : InStep env id d p Eq (Storage.removeStream id) (Storage.removeStream id) := by
    refine inStep_update (fun w cells => ?_) (fun _ => rfl) ?_
    · simp only [World.later, Book.later, laterAt_erase]
    · intro w _ r hr
      simp at hr
  refine lockstep_seq hremove fun _ => lockstep_seq (inStep_index (fun _ => rfl) fun _ => rfl) fun _ => ?_
  exact inStep_index (fun _ => rfl) fun _ => rfl

theorem inStep_pushIndex {get : Book → SlotArray StreamId} {set : SlotArray StreamId → Book → Book}
    (hget : ∀ b, get (b.later id d) = get b) (hset : ∀ x b, set x (b.later id d) = (set x b).later id d)
    (hstreams : ∀ x b, (set x b).streams = b.streams) :
    InStep env id d p Eq (Storage.pushIndex get set id) (Storage.pushIndex get set id) := by
  refine lockstep_seq (inStep_read fun w _ => (hget w.book).symm) fun index => ?_
  refine lockstep_seq (lockstep_haltIf Iff.rfl) fun _ => ?_
  exact inStep_index (hset _) (hstreams _)

theorem inStep_requireSenderOrDelegate :
    InStep env id d p Eq (requireSenderOrDelegate id s a) (requireSenderOrDelegate id (s.later d) a) :=
  lockstep_seq (inStep_read fun _ _ => rfl) fun _ => lockstep_failIf Iff.rfl

theorem inStep_payOutAndClose {amount : Int} :
    InStep env id d p Eq (payOutAndClose id s amount) (payOutAndClose id (s.later d) amount) :=
  lockstep_seq inStep_transferPositive fun _ => lockstep_seq inStep_transferPositive fun _ => inStep_closeStream

end

section

variable {a : Address} {looks : Bool}

/-- Extending an end time: where the later one overflows, the other errs as well or leaves
a record that cannot be moved by `d`. -/
theorem unless_extend {n k : Nat} {x y : Nat → Contract host Unit}
    (hfits : ∀ e, InStep env id d p Eq (x e) (y (e + d)))
    (hout : ∀ e, u64Max < e + d → ∀ w, (∃ v, x e env w = .err .overflow v) ∨
      ∃ v, x e env w = .ok () v ∧ Outgrown id d v) :
    InStepUnless env id d p Eq (do let e ← okOr .overflow (checkedAddU64 n k); x e)
      (do let e ← okOr .overflow (checkedAddU64 (n + d) k); y e) := by
  intro w w' hw
  by_cases hfit : n + k + d ≤ u64Max
  · have hfirst : checkedAddU64 n k = some (n + k) := Checked.addNat_eq_some.mpr ⟨by omega, rfl⟩
    have hsecond : checkedAddU64 (n + d) k = some (n + k + d) := Checked.addNat_eq_some.mpr ⟨by omega, by omega⟩
    rw [hfirst, hsecond]
    exact .inl (hfits (n + k) hw)
  · have hsecond : checkedAddU64 (n + d) k = none := if_neg (by omega)
    rw [hsecond]
    cases hfirst : checkedAddU64 n k with
    | none => exact .inl (.err ..)
    | some e =>
        obtain ⟨-, rfl⟩ := Checked.addNat_eq_some.mp hfirst
        rcases hout (n + k) (by omega) w with ⟨v, hv⟩ | ⟨v, hv, hbad⟩
        · refine .inl ?_
          change (x (n + k) env w).Agree _ _ _
          rw [hv]
          exact .err ..
        · exact .inr ⟨(), v, hv, hbad⟩

theorem outgrown_save (hid : s.id = id) (hlate : u64Max < s.endTime + d) :
    Outgrown id d (w.withBook (w.book.save s)) := by
  subst hid
  exact ⟨s, Finmap.lookup_insert _, fun h => absurd h.stop (not_le.mpr hlate)⟩

theorem inStep_subU64 {n k : Nat} : InStep env id d p Eq (subU64 n k) (subU64 (n + d) (k + d)) := by
  refine lockstep_seq (lockstep_haltIf (by omega)) fun _ => ?_
  exact lockstep_pure (Nat.add_sub_add_right n d k).symm

theorem inStep_renewStream (hid : s.id = id) (hrun : s.status ≠ .paused) {duration : Nat} :
    InStepUnless env id d p Eq (renewStream s duration) (renewStream (s.later d) duration) := by
  refine unless_seq inStep_requireAuth fun _ => unless_seq inStep_transfer fun _ => ?_
  refine unless_extend (fun e => ?_) fun e hlate w => .inr ?_
  · exact inStep_saveStream (s := { s with
      startTime := s.endTime
      endTime := e
      lastWithdrawTime := s.endTime
      totalWithdrawn := 0 }) hid hrun
  · exact ⟨_, saveStream_ok.mpr rfl, outgrown_save hid hlate⟩

theorem inStep_settleStream (hid : s.id = id) (hrun : s.status ≠ .paused) :
    InStepUnless env id d p Eq (settleStream looks id s now) (settleStream looks id (s.later d) (now + d)) := by
  have hsave : InStepUnless env id d p Eq (Storage.saveStream s) (Storage.saveStream (s.later d)) :=
    (inStep_saveStream hid hrun).unless
  have hlapse : InStep env id d p Eq (Storage.saveStream { s with status := .completed })
      (Storage.saveStream { s.later d with status := .completed }) :=
    inStep_saveStream (s := { s with status := .completed }) hid (by simp)
  refine unless_ite Nat.add_le_add_iff_right.symm ?_ hsave
  refine unless_seq inStep_subU64 fun duration => unless_ite Iff.rfl ?_ ?_
  · refine unless_seq (inStep_read fun _ _ => rfl) fun balance => unless_ite Iff.rfl ?_ ?_
    · exact (lockstep_seq inStep_transferPositive fun _ => hlapse).unless
    · exact inStep_renewStream hid hrun
  · exact (lockstep_seq inStep_transferPositive fun _ => inStep_closeStream).unless

theorem inStep_claimBlock {after : Int → Contract host Unit} (hafter : ∀ n, InStep env id d p Eq (after n) (after n))
    (hid : s.id = id) (hrun : s.status ≠ .paused) {claim : Int} :
    InStep env id d p (Delayed id d) (claimBlock noHook after s claim)
      (claimBlock noHook after (s.later d) claim) := by
  refine lockstep_ite Iff.rfl ?_ (lockstep_pure ⟨rfl, hid, hrun⟩)
  refine lockstep_seq (lockstep_okOr (rel_of_eq rfl)) fun total => lockstep_seq (lockstep_failIf Iff.rfl) fun _ => ?_
  refine lockstep_seq inStep_payClaim fun paid => lockstep_seq (hafter paid) fun _ => ?_
  exact lockstep_pure ⟨rfl, hid, hrun⟩

def Cooling (w : World) (s : Stream) (now : Nat) : Prop :=
  0 < Storage.getWithdrawalCooldown w ∧
    now < saturatingAddU64 s.lastWithdrawTime (Storage.getWithdrawalCooldown w)

/-- The end of the cooldown is moved too, short of the last instant of the clock. -/
theorem cooling_later {last cooldown : Nat} (hfit : now + d ≤ u64Max)
    (hlast : now + d = u64Max → ¬(0 < cooldown ∧ now < saturatingAddU64 last cooldown)) :
    0 < cooldown ∧ now < saturatingAddU64 last cooldown ↔
      0 < cooldown ∧ now + d < saturatingAddU64 (last + d) cooldown := by
  simp only [saturatingAddU64, Checked.satAddNat, lt_min_iff] at hlast ⊢
  omega

def Pinned (id : StreamId) (d p : Nat) (w₀ w w' : World) : Prop :=
  Shifted id d p w w' ∧ w.config = w₀.config ∧ w.book = w₀.book

theorem inStep_withdraw (hp : p ≤ env.now) (hfit : env.now + d ≤ u64Max) {w₀ : World}
    (hcool : ∀ s, w₀.book.streams.lookup id = some s → env.now + d = u64Max → ¬Cooling w₀ s env.now) :
    LockstepUnless (Outgrown id d) env (env.later d) (Pinned id d p w₀) (Shifted id d p) Eq
      (withdraw id a) (withdraw id a) := by
  have hgate : Lockstep env (env.later d) (Pinned id d p w₀) (Pinned id d p w₀) Eq
      requireRunning requireRunning := by
    refine inStep_requireRunning fun w w' hw => ?_
    rw [now_later hfit]
    obtain ⟨hrun, hrun', hnext⟩ := hw.1.awake hp d
    exact ⟨hrun, hrun', hnext, hw.2⟩
  have hload : Lockstep env (env.later d) (Pinned id d p w₀) (Pinned id d p w₀)
      (Option.Rel fun s s' => Delayed id d s s' ∧ w₀.book.streams.lookup id = some s)
      (ask (Storage.loadStream id)) (ask (Storage.loadStream id)) := by
    apply lockstep_read
    rintro w w' ⟨hw, -, hbook⟩
    rw [← hbook]
    exact delayed_load hw
  have hcooldown : Lockstep env (env.later d) (Pinned id d p w₀) (Pinned id d p w₀)
      (fun n n' => n = Storage.getWithdrawalCooldown w₀ ∧ n' = Storage.getWithdrawalCooldown w₀)
      (ask Storage.getWithdrawalCooldown) (ask Storage.getWithdrawalCooldown) := by
    apply lockstep_read
    rintro w _ ⟨⟨-, -, cells, -, rfl⟩, hconfig, -⟩
    have heq : Storage.getWithdrawalCooldown w = Storage.getWithdrawalCooldown w₀ := by
      simp only [Storage.getWithdrawalCooldown, hconfig]
    exact ⟨heq, heq⟩
  refine unless_seq hgate fun _ => unless_seq inStep_requireAuth fun _ => ?_
  refine unless_bind hload fun o o' ho => unless_bind (lockstep_okOr ho) ?_
  rintro s _ ⟨⟨rfl, hid, hrun⟩, hs⟩
  refine unless_seq (lockstep_failIf Iff.rfl) fun _ => unless_seq (lockstep_failIf Iff.rfl) fun _ => ?_
  apply unless_bind (inStep_timestamp hfit)
  rintro _ _ ⟨rfl, rfl⟩
  refine unless_seq (lockstep_failIf Nat.add_lt_add_iff_right.symm) fun _ => unless_bind hcooldown ?_
  rintro _ _ ⟨rfl, rfl⟩
  refine unless_seq (lockstep_failIf (cooling_later hfit (hcool s hs))) fun _ => ?_
  -- from here on only the relation matters, no longer the state the call began in
  refine LockstepUnless.of_imp ?_ fun _ _ h => h.1
  have hclaim := (computeClaimable_later s.flowRate env.now s.cliffTime s.endTime s.lastWithdrawTime d).symm
  refine unless_seq (lockstep_okOr (rel_of_eq hclaim)) fun claimable => ?_
  apply unless_bind (inStep_claimBlock (fun _ => inStep_notifyRecipient) hid hrun)
  rintro r _ ⟨rfl, hid, hrun⟩
  have hmark : min (env.now + d) (s.later d).endTime = min env.now s.endTime + d := Nat.add_min_add_right ..
  rw [hmark]
  exact inStep_settleStream (s := { r with lastWithdrawTime := min env.now s.endTime }) hid hrun

theorem inStep_cancelStream (hfit : env.now + d ≤ u64Max) :
    InStep env id d p Eq (cancelStream id a) (cancelStream id a) := by
  refine lockstep_seq inStep_requireAuth fun _ => lockstep_bind inStep_load fun o o' ho => ?_
  apply lockstep_bind (lockstep_okOr ho)
  rintro s _ ⟨rfl, hid, hrun⟩
  refine lockstep_seq inStep_requireSenderOrDelegate fun _ => lockstep_seq (lockstep_failIf Iff.rfl) fun _ => ?_
  apply lockstep_bind (inStep_timestamp hfit)
  rintro _ _ ⟨rfl, rfl⟩
  rw [clock_later hrun]
  have hearned := (computeEarned_later s.flowRate (s.clock env.now) s.endTime s.lastWithdrawTime d).symm
  exact lockstep_seq (lockstep_okOr (rel_of_eq hearned)) fun _ => inStep_payOutAndClose

theorem inStep_recipientTerminate (hp : p ≤ env.now) (hfit : env.now + d ≤ u64Max) :
    InStep env id d p Eq (recipientTerminate id a) (recipientTerminate id a) := by
  refine lockstep_seq (inStep_gate hp hfit) fun _ => lockstep_seq inStep_requireAuth fun _ => ?_
  refine lockstep_bind inStep_load fun o o' ho => lockstep_bind (lockstep_okOr ho) ?_
  rintro s _ ⟨rfl, hid, hrun⟩
  refine lockstep_seq (lockstep_failIf Iff.rfl) fun _ => lockstep_seq (lockstep_failIf Iff.rfl) fun _ => ?_
  refine lockstep_seq (lockstep_failIf Iff.rfl) fun _ => lockstep_bind (inStep_timestamp hfit) ?_
  rintro _ _ ⟨rfl, rfl⟩
  rw [clock_later hrun]
  have hclaim := (computeClaimable_later s.flowRate (s.clock env.now) s.cliffTime s.endTime s.lastWithdrawTime d).symm
  exact lockstep_seq (lockstep_okOr (rel_of_eq hclaim)) fun _ => inStep_payOutAndClose

theorem inStep_claimForTransfer (hid : s.id = id) (hrun : s.status ≠ .paused) :
    InStep env id d p (Delayed id d) (claimForTransfer s now) (claimForTransfer (s.later d) (now + d)) := by
  have hopen : s.lockUntil ≤ now ∧ s.cliffTime ≤ now ↔
      (s.later d).lockUntil ≤ now + d ∧ (s.later d).cliffTime ≤ now + d :=
    (and_congr Nat.add_le_add_iff_right Nat.add_le_add_iff_right).symm
  have hclaim := (computeClaimable_later s.flowRate now s.cliffTime s.endTime s.lastWithdrawTime d).symm
  refine lockstep_ite hopen ?_ (lockstep_pure ⟨rfl, hid, hrun⟩)
  refine lockstep_seq (lockstep_okOr (rel_of_eq hclaim)) fun claimable => ?_
  refine lockstep_ite Iff.rfl ?_ (lockstep_pure ⟨rfl, hid, hrun⟩)
  refine lockstep_seq inStep_payClaim fun _ => lockstep_seq (lockstep_okOr (rel_of_eq rfl)) fun total => ?_
  have hmark : min (now + d) (s.later d).endTime = min now s.endTime + d := Nat.add_min_add_right ..
  rw [hmark]
  exact lockstep_pure ⟨rfl, hid, hrun⟩

theorem inStep_transferRecipient (hp : p ≤ env.now) (hfit : env.now + d ≤ u64Max) {new : Address} :
    InStep env id d p Eq (transferRecipient id a new) (transferRecipient id a new) := by
  refine lockstep_seq (inStep_gate hp hfit) fun _ => lockstep_seq inStep_requireAuth fun _ => ?_
  refine lockstep_bind inStep_load fun o o' ho => lockstep_bind (lockstep_okOr ho) ?_
  rintro s _ ⟨rfl, hid, hrun⟩
  refine lockstep_seq (lockstep_failIf Iff.rfl) fun _ => lockstep_seq (lockstep_failIf Iff.rfl) fun _ => ?_
  apply lockstep_bind (inStep_timestamp hfit)
  rintro _ _ ⟨rfl, rfl⟩
  rw [clock_later hrun]
  apply lockstep_bind (inStep_claimForTransfer hid hrun)
  rintro r _ ⟨rfl, hid, hrun⟩
  refine lockstep_seq (inStep_saveStream (s := { r with recipient := new }) hid hrun) fun _ => ?_
  refine lockstep_seq (inStep_index (fun _ => rfl) fun _ => rfl) fun _ => ?_
  exact inStep_pushIndex (fun _ => rfl) (fun _ _ => rfl) fun _ _ => rfl

theorem inStep_divI128 {n k : Int} : InStep env id d p Eq (divI128 n k) (divI128 n k) :=
  lockstep_seq (lockstep_haltIf Iff.rfl) fun _ => lockstep_pure rfl

theorem inStep_remI128 {n k : Int} : InStep env id d p Eq (remI128 n k) (remI128 n k) :=
  lockstep_seq (lockstep_haltIf Iff.rfl) fun _ => lockstep_pure rfl

theorem inStep_topUp (hp : p ≤ env.now) (hfit : env.now + d ≤ u64Max) {token : Address} {amount : Int} :
    InStepUnless env id d p Eq (topUp id a token amount) (topUp id a token amount) := by
  refine unless_seq (inStep_gate hp hfit) fun _ => unless_seq inStep_requireAuth fun _ => ?_
  refine unless_bind inStep_load fun o o' ho => unless_bind (lockstep_okOr ho) ?_
  rintro s _ ⟨rfl, hid, hrun⟩
  refine unless_seq inStep_requireSenderOrDelegate fun _ => unless_seq (lockstep_failIf Iff.rfl) fun _ => ?_
  refine unless_seq (lockstep_failIf Iff.rfl) fun _ => unless_seq (lockstep_failIf Iff.rfl) fun _ => ?_
  refine unless_seq inStep_remI128 fun remainder => unless_seq (lockstep_failIf Iff.rfl) fun _ => ?_
  refine unless_seq inStep_transfer fun _ => unless_seq inStep_divI128 fun extraSeconds => ?_
  refine unless_seq (lockstep_failIf Iff.rfl) fun _ => unless_extend (fun e => ?_) fun e hlate w => ?_
  · refine lockstep_seq (lockstep_okOr (rel_of_eq rfl)) fun deposit => ?_
    exact inStep_saveStream (s := { s with endTime := e, deposit }) hid hrun
  · cases hdeposit : checkedAddI128 s.deposit (amount - remainder) with
    | none => exact .inl ⟨w, rfl⟩
    | some deposit => exact .inr ⟨_, saveStream_ok.mpr rfl, outgrown_save hid hlate⟩

theorem inStep_getClaimable (hfit : env.now + d ≤ u64Max) :
    InStep env id d p Eq (getClaimable id) (getClaimable id) := by
  apply lockstep_bind (lockstep_bind inStep_load fun o o' ho => lockstep_okOr ho)
  rintro s _ ⟨rfl, hid, hrun⟩
  refine lockstep_ite Iff.rfl (lockstep_pure rfl) (lockstep_bind (inStep_timestamp hfit) ?_)
  rintro _ _ ⟨rfl, rfl⟩
  rw [clock_later hrun]
  refine lockstep_ite Nat.add_lt_add_iff_right.symm (lockstep_pure rfl) ?_
  exact lockstep_okOr (rel_of_eq (computeClaimable_later ..).symm)

end

end SoroStream
