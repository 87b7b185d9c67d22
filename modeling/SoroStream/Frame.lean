import SoroStream.Actions
import SoroStream.Keeping

namespace SoroStream

open Lib Lib.Rollback Lib.Rollback.Prog Lib.Runs

variable {host : Host} {env : Env host} {w w' w'' : World}

structure FeeBounded (c : Config) : Prop where
  current : ∀ f, c.protocolFee = some f → f ≤ 10000
  pending : ∀ f t, c.pendingFee = some (f, t) → f ≤ 10000

/-- A step beside the streams: no record and no index changes, the contract's
tokens stay, and only the treasury contract pays out. -/
structure Aside (host : Host) (w w' : World) : Prop where
  book : w'.book = w.book
  held : ∀ token, w.balances token host.contract ≤ w'.balances token host.contract
  fees : FeeBounded w.config → FeeBounded w'.config
  log : ∃ ts, w'.log = w.log ++ ts ∧ ∀ t ∈ ts, t.cause = .payout

namespace Aside

theorem refl (w : World) : Aside host w w :=
  ⟨rfl, fun _ => le_rfl, fun h => h, [], by simp, by simp⟩

theorem trans (h : Aside host w w') (h' : Aside host w' w'') : Aside host w w'' := by
  obtain ⟨ts, hts, hpay⟩ := h.log
  obtain ⟨us, hus, hpay'⟩ := h'.log
  refine ⟨h'.book.trans h.book, fun token => (h.held token).trans (h'.held token),
    fun hf => h'.fees (h.fees hf), ts ++ us, by rw [hus, hts, List.append_assoc], ?_⟩
  intro t ht
  rcases List.mem_append.mp ht with ht | ht
  · exact hpay t ht
  · exact hpay' t ht

instance : IsPreorder World (Aside host) where
  refl := refl
  trans _ _ _ := trans

end Aside

theorem setConfig_aside {f : Config → Config} (hf : ∀ c, FeeBounded c → FeeBounded (f c)) :
    Keeps env (Aside host) (setConfig f) :=
  keeps_update fun w => ⟨rfl, fun _ => le_rfl, hf w.config, [], by simp, by simp⟩

theorem update_aside {f : Env host → World → World} (hbook : ∀ w, (f env w).book = w.book)
    (hconfig : ∀ w, (f env w).config = w.config) (hlog : ∀ w, (f env w).log = w.log)
    (hbalances : ∀ w, (f env w).balances = w.balances) : Keeps env (Aside host) (update f : Contract host Unit) :=
  keeps_update fun w =>
    ⟨hbook w, fun token => (congrFun (congrFun (hbalances w) token) host.contract).ge, fun h => (hconfig w).symm ▸ h,
      [], by simp [hlog], by simp⟩

theorem aside_treasury : KeptByTreasury env (Aside host) where
  cells f := update_aside (fun _ => rfl) (fun _ => rfl) (fun _ => rfl) fun _ => rfl
  payout token destination amount w h := by
    refine ⟨rfl, ?_, fun h => h, [_], rfl, by simp [TreasuryContract.payout]⟩
    intro other
    have hpos := h.1
    have hne : host.treasury ≠ host.contract := host.treasury_ne_contract
    simp only [TreasuryContract.payout] at hpos
    simp only [pay_balances, spent_cons, received_cons, spent_nil, received_nil, TreasuryContract.payout, hne,
      and_false, if_false]
    split <;> omega

theorem aside_beside : KeptBeside env (Aside host) where
  audit f := update_aside (fun _ => rfl) (fun _ => rfl) (fun _ => rfl) fun _ => rfl
  wasm hash w := ⟨rfl, fun _ => le_rfl, fun h => h, [], by simp, by simp⟩
  foreign ha := ⟨rfl, fun token => (env.foreign_keeps ha token).1, fun h => h, [], by simp, by simp⟩
  withdraw _ _ _ := withdrawTreasury_keeps aside_treasury
  withdrawAll _ _ := withdrawAll_keeps aside_treasury

theorem FeeBounded.sameRates {c c' : Config} (h : FeeBounded c) (hsame : SameRates c c') : FeeBounded c' :=
  ⟨fun r hr => h.current r (hsame.1 ▸ hr), fun r t hr => h.pending r t (hsame.2 ▸ hr)⟩

section

open Contract

theorem setProtocolFee_aside {feeBps : Nat} : Keeps env (Aside host) (setProtocolFee feeBps) := by
  intro w _ w' h
  simp only [setProtocolFee, bind_ok, failIf_ok, not_lt, Storage.setProtocolFee, setConfig, update_ok] at h
  obtain ⟨_, _, ⟨hle, rfl⟩, rfl⟩ := h
  refine ⟨rfl, fun _ => le_rfl, fun hf => ⟨?_, hf.pending⟩, [], by simp, by simp⟩
  rintro r ⟨⟩
  exact hle

theorem proposeFeeChange_aside {admin : Address} {feeBps : Nat} :
    Keeps env (Aside host) (proposeFeeChange admin feeBps) := by
  intro w _ w' h
  simp only [proposeFeeChange, ask, timestamp, bind_ok, requireAuth_ok, read_ok, okOr_ok, failIf_ok, not_lt, not_not,
    Storage.writePendingFeeProposal, setConfig, update_ok, and_assoc, exists_and_left, exists_eq_left',
    exists_const] at h
  obtain ⟨-, -, -, -, hle, rfl⟩ := h
  refine ⟨rfl, fun _ => le_rfl, fun hf => ⟨hf.current, ?_⟩, [], by simp, by simp⟩
  rintro r t ⟨⟩
  exact hle

theorem executeFeeChange_aside : Keeps env (Aside host) executeFeeChange := by
  intro w _ w' h
  simp only [executeFeeChange, ask, timestamp, bind_ok, read_ok, okOr_ok, failIf_ok, Storage.setProtocolFee,
    Storage.clearPendingFeeProposal, setConfig, update_ok, and_assoc, exists_and_left, exists_eq_left',
    exists_const] at h
  obtain ⟨⟨fee, unlock⟩, hp, -, rfl⟩ := h
  refine ⟨rfl, fun _ => le_rfl, fun hf => ⟨?_, by simp⟩, [], by simp, by simp⟩
  rintro r ⟨⟩
  exact hf.pending fee unlock hp

end

theorem configCall_aside (c : ConfigCall) : Keeps env (Aside host) c.exec := by
  cases c with
  | setProtocolFee feeBps => exact setProtocolFee_aside
  | proposeFeeChange admin newFeeBps => exact proposeFeeChange_aside
  | executeFeeChange => exact executeFeeChange_aside
  | _ =>
      exact configCall_keeps aside_beside (fun _ f hf => setConfig_aside fun c hc => hc.sameRates (hf c))
        (fun _ f => update_aside (fun _ => rfl) (fun _ => rfl) (fun _ => rfl) fun _ => rfl) fun h => False.elim h

instance : IsPreorder World Eq where
  refl _ := rfl
  trans _ _ _ := Eq.trans

theorem getStream_silent {id : StreamId} : Keeps env Eq (Contract.getStream id) :=
  keeps_bind keeps_read fun _ => keeps_okOr

theorem getClaimable_silent {id : StreamId} : Keeps env Eq (Contract.getClaimable id) :=
  keeps_bind getStream_silent fun _ => keeps_ite keeps_pure
    (keeps_bind keeps_read fun _ => keeps_ite keeps_pure keeps_okOr)

theorem view_silent (v : Contract.View) : Keeps env Eq v.exec := by
  cases v with
  | getAdmin | getVersion => exact keeps_bind (keeps_bind keeps_read fun _ => keeps_okOr) fun _ => keeps_pure
  | getStream id => exact keeps_bind getStream_silent fun _ => keeps_pure
  | getClaimable id => exact keeps_bind getClaimable_silent fun _ => keeps_pure
  | isParticipant id address =>
      exact keeps_bind (keeps_bind getStream_silent fun _ => keeps_pure) fun _ => keeps_pure
  | _ => exact keeps_bind keeps_read fun _ => keeps_pure

theorem silent_made (x : Contract host Unit) (w : World) :
    ((do x; pure [] : Contract host (List StreamId)) env w).value?.getD [] = [] := by
  cases hv : ((do x; pure [] : Contract host (List StreamId)) env w).value? with
  | none => rfl
  | some ids =>
      obtain ⟨t, ht⟩ := Outcome.value?_eq_some.mp hv
      obtain ⟨_, _, -, hids⟩ := bind_ok.mp ht
      exact (pure_ok.mp hids).1.symm

/-- An event leaves the streams alone and makes no record, or it is a successful
stream call, whose actions make the records it returns. -/
theorem step_cases {c : Chain} {e : Event host} (h : May c e) :
    (c.made e = [] ∧ Aside host c.world (c.step e).world) ∨
      ∃ env call made v, e = .call env (.stream call) ∧ call.exec env c.world = .ok (c.made e) (c.step e).world ∧
        made.map Stream.id = c.made e ∧ (c.made e).Nodup ∧ Aside host c.world v ∧
        Acts env made v (c.step e).world := by
  cases e with
  | call env call =>
      cases call with
      | stream call =>
          cases hx : call.exec env c.world with
          | ok ids t =>
              have hmade : c.made (.call env (.stream call)) = ids := by
                simp [Chain.made, Call.exec, hx, Outcome.value?]
              have hstep : (c.step (.call env (.stream call))).world = t := by simp [Chain.step, Call.exec, hx]
              rw [hmade, hstep]
              have hawake : Aside host c.world (c.world.awake env.now) :=
                ⟨rfl, fun _ => le_rfl, fun h => h, [], by simp, by simp⟩
              obtain ⟨made, hids, hnodup, hacts | hacts⟩ := streamCall_acts hx
              · exact .inr ⟨env, call, made, c.world, rfl, hx, hids, hnodup, .refl _, hacts⟩
              · exact .inr ⟨env, call, made, _, rfl, hx, hids, hnodup, hawake, hacts⟩
          | err e t =>
              exact .inl ⟨by simp [Chain.made, Call.exec, hx, Outcome.value?],
                by simpa [Chain.step, Call.exec, hx] using Aside.refl c.world⟩
          | trap =>
              exact .inl ⟨by simp [Chain.made, Call.exec, hx, Outcome.value?],
                by simpa [Chain.step, Call.exec, hx] using Aside.refl c.world⟩
      | config call =>
          exact .inl ⟨silent_made call.exec c.world,
            Keeps.commit (keeps_bind (configCall_aside call) fun _ => keeps_pure) c.world⟩
      | view v =>
          refine .inl ⟨silent_made v.exec c.world, Keeps.commit (keeps_bind ?_ fun _ => keeps_pure) c.world⟩
          intro w _ w' h
          exact view_silent v h ▸ Aside.refl w
  | treasury env call => exact .inl ⟨rfl, Keeps.commit (treasuryCall_keeps aside_treasury call) c.world⟩
  | tokens time b =>
      exact .inl ⟨rfl, rfl, fun token => (h.2 token).1, fun h => h, [], by simp [Chain.step], by simp⟩

/-- The induction rule of the system: what every action keeps and no other event
disturbs holds in every state reached. -/
theorem reached_inv {c : Chain} (I : Nat → World → Prop) (hfresh : ∀ c, Fresh host c → I c.now c.world)
    (haside : ∀ now now' w w', now ≤ now' → Aside host w w' → I now w → I now' w')
    (hacted : ∀ (env : Env host) made w w', Acted env made w w' → I env.now w → I env.now w')
    (h : Reached host c) : I c.now c.world := by
  refine h.inv (fun c => I c.now c.world) hfresh ?_
  intro c e hc hmay
  rcases step_cases hmay with ⟨-, ha⟩ | ⟨env, call, made, v, rfl, -, -, -, ha, hacts⟩
  · exact haside _ _ _ _ hmay.1 ha hc
  · exact hacts.inv _ (hacted env) (haside _ _ _ _ hmay.1 ha hc)

end SoroStream
