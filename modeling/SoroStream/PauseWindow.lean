import SoroStream.AdminOnly
import SoroStream.PauseGate
import SoroStream.Lib.Window

namespace SoroStream

open Lib Lib.Rollback Lib.Rollback.Prog Lib.Runs Lib.Window Contract

variable {host : Host} {env : Env host} {w w' : World} {c c' : Chain} {e : Event host} {u : Unit}
  {events : List (Event host)} {p : PauseCells} {history : List Mark} {now t : Nat}

def SamePause (w w' : World) : Prop := w'.pause = w.pause

instance : IsPreorder World SamePause where
  refl _ := rfl
  trans _ _ _ h h' := Eq.trans h' h

def ConfigCall.applyPause (now : Nat) (p : PauseCells) : ConfigCall → PauseCells
  | .emergencyPause | .pause _ => ⟨some true, some (saturatingAddU64 now Storage.maxPauseDuration)⟩
  | .emergencyResume | .unpause _ => ⟨some false, some 0⟩
  | .isPaused => p.settle now
  | _ => p

theorem samePause_beside : KeptBeside env SamePause where
  audit _ := keeps_update fun _ => rfl
  wasm _ _ := rfl
  foreign _ := rfl
  withdraw _ _ _ _ _ _ h := (sameStorage_beside.withdraw _ _ _ h).pause
  withdrawAll _ _ _ _ _ h := (sameStorage_beside.withdrawAll _ _ h).pause

theorem configCall_samePause {k : ConfigCall} (h : k.exec env w = .ok u w') (hpause : ¬k.SetsPause) :
    w'.pause = w.pause := by
  have hconfig (f : Config → Config) : Keeps env SamePause (setConfig f) := keeps_update fun _ => rfl
  exact configCall_keeps samePause_beside (fun _ f _ => hconfig f) (fun h => absurd h hpause) (fun _ => hconfig) h

theorem setPause_ok {x : Unit → Contract host Unit} {paused : Bool} {expiry : Nat}
    (hx : ∀ u, Keeps env SamePause (x u))
    (h : (do Storage.setPaused paused; Storage.setPauseExpiry expiry; x () : Contract host Unit) env w = .ok u w') :
    w'.pause = ⟨some paused, some expiry⟩ := by
  simp only [Storage.setPaused, Storage.setPauseExpiry, setPause, bind_ok, update_ok] at h
  obtain ⟨_, _, rfl, _, _, rfl, h⟩ := h
  exact hx () h

theorem configCall_pause {k : ConfigCall} (h : k.exec env w = .ok u w') :
    w'.pause = k.applyPause env.now w.pause := by
  cases k with
  | emergencyPause =>
      obtain ⟨_, _, hadmin, h⟩ := bind_ok.mp h
      obtain ⟨-, rfl⟩ := checkAdmin_ok.mp hadmin
      simp only [Storage.setPaused, Storage.setPauseExpiry, setPause, timestamp, bind_ok, update_ok, read_ok, and_assoc,
        exists_and_left, exists_eq_left', exists_const] at h
      exact recordAction_keeps samePause_beside.audit h
  | emergencyResume =>
      obtain ⟨_, _, hadmin, h⟩ := bind_ok.mp h
      obtain ⟨-, rfl⟩ := checkAdmin_ok.mp hadmin
      exact setPause_ok (fun _ => recordAction_keeps samePause_beside.audit) h
  | isPaused =>
      obtain ⟨_, _, h, -, rfl⟩ := bind_ok.mp h
      simp only [isPaused, isPausedOrAutoUnpause_run, Outcome.ok.injEq] at h
      obtain ⟨-, rfl⟩ := h
      rfl
  | pause guardian =>
      simp only [ConfigCall.exec, pause, ask, timestamp, Storage.setPaused, Storage.setPauseExpiry, setPause, bind_ok,
        requireAuth_ok, read_ok, okOr_ok, failIf_ok, update_ok, and_assoc, exists_and_left, exists_eq_left',
        exists_const] at h
      obtain ⟨-, _, -, -, rfl⟩ := h
      rfl
  | unpause governance =>
      simp only [ConfigCall.exec, unpause, ask, Storage.setPaused, Storage.setPauseExpiry, setPause, bind_ok,
        requireAuth_ok, read_ok, okOr_ok, failIf_ok, update_ok, and_assoc, exists_and_left, exists_eq_left',
        exists_const] at h
      obtain ⟨-, _, -, -, rfl⟩ := h
      rfl
  | _ => exact configCall_samePause h fun h => h

def ConfigCall.marks (now : Nat) : ConfigCall → List Mark
  | .emergencyPause | .pause _ => [.on now]
  | .emergencyResume | .unpause _ => [.off]
  | _ => []

def Chain.marks (c : Chain) : Event host → List Mark
  | .call env (.config k) => if (k.exec env c.world).value?.isSome = true then k.marks env.now else []
  | _ => []

def PauseCells.Follows (p : PauseCells) (history : List Mark) (now : Nat) : Prop :=
  ∀ t, now ≤ t → (p.pausedAt t = true ↔ Open Storage.maxPauseDuration history t)

theorem settle_pausedAt (h : now ≤ t) : (p.settle now).pausedAt t = p.pausedAt t := by
  unfold PauseCells.settle
  split
  · next hout =>
      obtain ⟨hpaused, hpos, hle⟩ := hout
      have hover : p.expiry.getD 0 ≤ t := hle.trans h
      simp [PauseCells.pausedAt, hpos, hover]
  · rfl

theorem settle_settle (p : PauseCells) (now : Nat) : (p.settle now).settle now = p.settle now := by
  by_cases hout : p.paused.getD false = true ∧ 0 < p.expiry.getD 0 ∧ p.expiry.getD 0 ≤ now
  · simp [PauseCells.settle, hout]
  · simp only [PauseCells.settle, if_neg hout]

theorem acts_samePause {made : List Stream} (h : Acts env made w w') : w'.pause = w.pause := by
  induction h with
  | refl _ => rfl
  | tail _ hstep ih =>
      obtain ⟨b, ts, w₁, -, hm, rfl⟩ := hstep
      exact hm.pause.trans ih

theorem streamCall_pausedAt {k : StreamCall} {ids : List StreamId} (h : k.exec env w = .ok ids w')
    (hnow : env.now ≤ t) : w'.pause.pausedAt t = w.pause.pausedAt t := by
  obtain ⟨made, -, -, h | h⟩ := streamCall_acts h
  · rw [acts_samePause h]
  · rw [acts_samePause h]
    exact settle_pausedAt hnow

/-- A successful configuration call marks the history and sets the cells, or does
neither. -/
theorem ConfigCall.applyPause_cases (k : ConfigCall) (now : Nat) (p : PauseCells) :
    (k.marks now = [] ∧ ∀ t, now ≤ t → (k.applyPause now p).pausedAt t = p.pausedAt t) ∨
    (k.marks now = [.on now] ∧
      k.applyPause now p = ⟨some true, some (saturatingAddU64 now Storage.maxPauseDuration)⟩) ∨
    (k.marks now = [.off] ∧ k.applyPause now p = ⟨some false, some 0⟩) := by
  cases k with
  | emergencyPause | pause => exact .inr (.inl ⟨rfl, rfl⟩)
  | emergencyResume | unpause => exact .inr (.inr ⟨rfl, rfl⟩)
  | isPaused => exact .inl ⟨rfl, fun t ht => settle_pausedAt ht⟩
  | _ => exact .inl ⟨rfl, fun _ _ => rfl⟩

theorem step_pause (c : Chain) (e : Event host) :
    (c.marks e = [] ∧ ∀ t, e.time ≤ t → (c.step e).world.pause.pausedAt t = c.world.pause.pausedAt t) ∨
    (c.marks e = [.on e.time] ∧
      (c.step e).world.pause = ⟨some true, some (saturatingAddU64 e.time Storage.maxPauseDuration)⟩) ∨
    (c.marks e = [.off] ∧ (c.step e).world.pause = ⟨some false, some 0⟩) := by
  cases e with
  | call env call =>
      cases call with
      | stream k =>
          refine .inl ⟨rfl, fun t ht => ?_⟩
          cases hx : k.exec env c.world with
          | ok ids v =>
              simp only [Chain.step, Call.exec, hx, Outcome.commit_ok]
              exact streamCall_pausedAt hx ht
          | err e v => simp only [Chain.step, Call.exec, hx, Outcome.commit_err]
          | trap => simp only [Chain.step, Call.exec, hx, Outcome.commit_trap]
      | config k =>
          cases hx : k.exec env c.world with
          | ok u v =>
              have hmarks : c.marks (.call env (.config k)) = k.marks env.now := by
                simp [Chain.marks, hx, Outcome.value?]
              have hcells : (c.step (.call env (.config k))).world.pause = k.applyPause env.now c.world.pause := by
                simpa [Chain.step, Call.exec, bind_apply hx] using configCall_pause hx
              rw [hmarks, hcells]
              exact k.applyPause_cases env.now c.world.pause
          | err e v =>
              refine .inl ⟨by simp [Chain.marks, hx, Outcome.value?], fun t _ => ?_⟩
              simp [Chain.step, Call.exec, bind_err hx]
          | trap =>
              refine .inl ⟨by simp [Chain.marks, hx, Outcome.value?], fun t _ => ?_⟩
              simp [Chain.step, Call.exec, bind, hx]
      | view v =>
          refine .inl ⟨rfl, fun t _ => ?_⟩
          cases hx : v.exec env c.world with
          | ok u w' =>
              obtain rfl := view_silent v hx
              simp [Chain.step, Call.exec, bind_apply hx]
          | err e w' => simp [Chain.step, Call.exec, bind_err hx]
          | trap => simp [Chain.step, Call.exec, bind, hx]
  | treasury env call =>
      refine .inl ⟨rfl, fun t _ => ?_⟩
      have hsame : SameStorage c.world ((call.exec none env c.world).commit c.world) :=
        (treasuryCall_keeps sameStorage_treasury call).commit c.world
      exact congrArg (PauseCells.pausedAt · t) hsame.pause
  | tokens time b => exact .inl ⟨rfl, fun _ _ => rfl⟩

/-- What the history says of the past, and what the cells say of the future. -/
theorem step_follows (hmay : May c e) (hpast : ∀ t₀, .on t₀ ∈ history → t₀ ≤ c.now)
    (hfollows : c.world.pause.Follows history c.now)
    (hfits : ∀ t₀, .on t₀ ∈ c.marks e → t₀ + Storage.maxPauseDuration ≤ u64Max) :
    (c.step e).world.pause.Follows (history ++ c.marks e) (c.step e).now := by
  intro t ht
  change e.time ≤ t at ht
  rcases step_pause c e with ⟨hmarks, hsame⟩ | ⟨hmarks, hcells⟩ | ⟨hmarks, hcells⟩
  · rw [hmarks, List.append_nil, hsame t ht]
    exact hfollows t (hmay.1.trans ht)
  · have hroom := hfits e.time (by simp [hmarks])
    have hpast' : ∀ t₀, .on t₀ ∈ history → t₀ ≤ e.time := fun t₀ ht₀ => (hpast t₀ ht₀).trans hmay.1
    have hexpiry : saturatingAddU64 e.time Storage.maxPauseDuration = e.time + Storage.maxPauseDuration :=
      Nat.min_eq_left hroom
    have hpos : 0 < e.time + Storage.maxPauseDuration := Nat.add_pos_right _ (by decide)
    rw [hmarks, open_on hpast' ht, hcells, hexpiry]
    simp [PauseCells.pausedAt, hpos]
  · rw [hmarks, hcells]
    exact iff_of_false (by simp [PauseCells.pausedAt]) not_open_off

theorem follows_of_run (hfresh : Fresh host c) (hrun : SystemRun host c events c') :
    (∀ t₀, .on t₀ ∈ outputs Chain.step Chain.marks c events → t₀ ≤ c'.now) ∧
      ((∀ t₀, .on t₀ ∈ outputs Chain.step Chain.marks c events → t₀ + Storage.maxPauseDuration ≤ u64Max) →
        c'.world.pause.Follows (outputs Chain.step Chain.marks c events) c'.now) := by
  refine hrun.trace_inv (fun events c' => (∀ t₀, .on t₀ ∈ outputs Chain.step Chain.marks c events → t₀ ≤ c'.now) ∧
    ((∀ t₀, .on t₀ ∈ outputs Chain.step Chain.marks c events → t₀ + Storage.maxPauseDuration ≤ u64Max) →
      c'.world.pause.Follows (outputs Chain.step Chain.marks c events) c'.now)) ?_ ?_
  · refine ⟨fun t₀ ht₀ => absurd ht₀ List.not_mem_nil, fun _ t _ => ?_⟩
    rw [hfresh.pause]
    exact iff_of_false (by simp [PauseCells.pausedAt]) not_open_nil
  · rintro es c' e hr ⟨hpast, hfollows⟩ hmay
    rw [hr.outputs_snoc e]
    refine ⟨?_, ?_⟩
    · intro t₀ ht₀
      rcases List.mem_append.mp ht₀ with ht₀ | ht₀
      · exact (hpast t₀ ht₀).trans hmay.1
      · rcases step_pause c' e with ⟨hmarks, -⟩ | ⟨hmarks, -⟩ | ⟨hmarks, -⟩
        · simp [hmarks] at ht₀
        · simp [hmarks] at ht₀
          exact ht₀.le
        · simp [hmarks] at ht₀
    · intro hfits
      have hbefore := hfollows fun t₀ ht₀ => hfits t₀ (List.mem_append_left _ ht₀)
      exact step_follows hmay hpast hbefore fun t₀ ht₀ => hfits t₀ (List.mem_append_right _ ht₀)

theorem isPaused_true : (∃ v, isPaused env w = .ok true v) ↔ w.pause.pausedAt env.now = true := by
  simp only [isPaused, isPausedOrAutoUnpause_run, Outcome.ok.injEq]
  constructor
  · rintro ⟨_, hpaused, -⟩
    exact hpaused
  · intro hpaused
    exact ⟨_, hpaused, rfl⟩

/-- At every moment of every run, `is_paused` and the gates answer what the history of
successful pauses and resumptions says. -/
theorem pause_window_exact (env : Env host) (hfresh : Fresh host c) (hrun : SystemRun host c events c')
    (hfits : ∀ t₀, .on t₀ ∈ outputs Chain.step Chain.marks c events → t₀ + Storage.maxPauseDuration ≤ u64Max)
    (hnow : c'.now ≤ env.now) :
    ((∃ v, isPaused env c'.world = .ok true v) ↔
      Open Storage.maxPauseDuration (outputs Chain.step Chain.marks c events) env.now) ∧
    ∀ call : StreamCall, call.gated = true → env.auths call.signer = true →
      ((∃ v, call.exec env c'.world = .err .contractPaused v) ↔
        Open Storage.maxPauseDuration (outputs Chain.step Chain.marks c events) env.now) := by
  have hfollows := (follows_of_run hfresh hrun).2 hfits env.now hnow
  refine ⟨isPaused_true.trans hfollows, ?_⟩
  intro call hgated hauth
  exact (gated_iff hgated hauth).trans hfollows

namespace Sample

theorem emergency_marks : outputs Chain.step Chain.marks genesis emergency = [.on 15] := by decide +kernel

end Sample

theorem sample_pause_window :
    ((∃ v, isPaused (Sample.signed [3] 20) (Sample.genesis.after Sample.emergency).world = .ok true v) ↔
      Open Storage.maxPauseDuration (outputs Chain.step Chain.marks Sample.genesis Sample.emergency) 20) ∧
    ∀ call : StreamCall, call.gated = true → (Sample.signed [3] 20).auths call.signer = true →
      ((∃ v, call.exec (Sample.signed [3] 20) (Sample.genesis.after Sample.emergency).world =
          .err .contractPaused v) ↔
        Open Storage.maxPauseDuration (outputs Chain.step Chain.marks Sample.genesis Sample.emergency) 20) := by
  refine pause_window_exact (Sample.signed [3] 20) Sample.genesis_fresh (run_of_inOrder (by decide)) ?_ (by decide)
  intro t₀ ht₀
  rw [Sample.emergency_marks] at ht₀
  obtain rfl := Mark.on.inj (List.mem_singleton.mp ht₀)
  decide

end SoroStream
