import SoroStream.Lineage

namespace SoroStream

open Lib Lib.Rollback Lib.Rollback.Prog Lib.Runs Contract

variable {host : Host} {env : Env host} {w w' : World} {c c' : Chain} {events : List (Event host)}
  {ids : List StreamId}

inductive CreationPath
  | create
  | batch
  | split
  deriving DecidableEq

/-- The path that derives an ID and the tuple it hashes. The nonce is the sender's
own, the position in a batch, or the ID of the stream that is split. -/
structure Origin where
  path : CreationPath
  sender : Address
  recipient : Address
  startTime : Nat
  nonce : Nat
  deriving DecidableEq

namespace Origin

def tuple (o : Origin) : Address × Address × Nat × Nat := (o.sender, o.recipient, o.startTime, o.nonce)

def id (host : Host) (o : Origin) : StreamId :=
  Storage.deriveStreamId host o.sender o.recipient o.startTime o.nonce

def Meets (o o' : Origin) : Prop := o.tuple = o'.tuple ∧ (o.path = o'.path → o.path = .batch)

instance (o o' : Origin) : Decidable (Meets o o') := inferInstanceAs (Decidable (_ ∧ _))

end Origin

def StreamCall.origins (env : Env host) (w : World) : StreamCall → List Origin
  | .createStream a => [⟨.create, a.sender, a.recipient, env.now, a.nonce.val⟩]
  | .batchCreateStream a =>
      (batchItems a.recipients a.amounts a.tokens a.lockUntils).zipIdx.map fun entry =>
        ⟨.batch, a.sender, entry.1.recipient, env.now, entry.2⟩
  | .partialCancelStream id _ _ =>
      (w.book.streams.lookup id).toList.map fun s => ⟨.split, s.sender, s.recipient, s.clock env.now, id⟩
  | _ => []

def Chain.origins (c : Chain) : Event host → List Origin
  | .call env (.stream call) => if (call.exec env c.world).value?.isSome then call.origins env c.world else []
  | _ => []

abbrev created (c : Chain) (events : List (Event host)) : List StreamId :=
  outputs Chain.step Chain.made c events

abbrev minted (c : Chain) (events : List (Event host)) : List Origin :=
  outputs Chain.step Chain.origins c events

theorem derivedIds_eq (sender : Address) (now : Nat) (items : List BatchItem) (i : Nat) :
    derivedIds host sender now items i =
      (items.zipIdx i).map fun entry => Storage.deriveStreamId host sender entry.1.recipient now entry.2 := by
  induction items generalizing i with
  | nil => rfl
  | cons item items ih => rw [derivedIds, ih, List.zipIdx_cons, List.map_cons]

theorem exec_origins {call : StreamCall} (h : call.exec env w = .ok ids w') :
    ids = (call.origins env w).map (Origin.id host) := by
  cases call with
  | createStream a =>
      obtain ⟨newId, _, h, rfl, -⟩ := bind_ok.mp h
      obtain ⟨-, rfl, -⟩ := createStream_ok h
      rfl
  | batchCreateStream a =>
      obtain ⟨rfl, -, -⟩ := batchCreateStream_acts h
      rw [batchEntries_ids, derivedIds_eq, StreamCall.origins, List.map_map]
      rfl
  | partialCancelStream id caller cancelAmount =>
      obtain ⟨newId, _, h, rfl, -⟩ := bind_ok.mp h
      obtain ⟨-, s, earned, streamed, -, rfl, hsplit, -⟩ := partialCancelStream_ok h
      simp only [StreamCall.origins, hsplit.stored, Option.toList_some, List.map_cons, List.map_nil, Origin.id]
  | _ =>
      obtain ⟨_, _, -, rfl, -⟩ := bind_ok.mp h
      rfl

theorem made_eq (c : Chain) (e : Event host) : c.made e = (c.origins e).map (Origin.id host) := by
  cases e with
  | call env call =>
      cases call with
      | stream call =>
          cases hx : call.exec env c.world with
          | ok ids t => simp [Chain.made, Chain.origins, Call.exec, hx, Outcome.value?, ← exec_origins hx]
          | err e t => simp [Chain.made, Chain.origins, Call.exec, hx, Outcome.value?]
          | trap => simp [Chain.made, Chain.origins, Call.exec, hx, Outcome.value?]
      | config call => exact silent_made call.exec c.world
      | view v => exact silent_made v.exec c.world
  | treasury env call => rfl
  | tokens time b => rfl

theorem created_eq (c : Chain) (events : List (Event host)) :
    created c events = (minted c events).map (Origin.id host) := by
  induction events generalizing c with
  | nil => rfl
  | cons e events ih =>
      have hrest : outputs Chain.step Chain.made (c.step e) events =
          (outputs Chain.step Chain.origins (c.step e) events).map (Origin.id host) := ih (c.step e)
      simp only [outputs, List.map_append, made_eq, hrest]

theorem action_marked {made : List Stream} {b : Book} {ts : List Transfer} (h : Action env w made b ts)
    {a : Address} {n : Nat} (hmarked : w.book.nonces a n ≠ none) : b.nonces a n ≠ none := by
  cases h with
  | nonceMarked sender nonce =>
      simp only [Book.markNonce, Function.update_apply]
      split
      · next ha =>
          subst ha
          rw [Function.update_apply]
          split
          · simp
          · exact hmarked
      · exact hmarked
  | withdrawn single id s claim w₁ out us h =>
      cases out with
      | none | some s' => exact hmarked
  | _ => exact hmarked

theorem step_marked {e : Event host} (hmay : May c e) {a : Address} {n : Nat}
    (hmarked : c.world.book.nonces a n ≠ none) : (c.step e).world.book.nonces a n ≠ none := by
  rcases step_cases hmay with ⟨-, haside⟩ | ⟨env, call, made, v, rfl, -, -, -, haside, hacts⟩
  · rwa [haside.book]
  · refine hacts.inv (fun w => w.book.nonces a n ≠ none) ?_ (by rwa [haside.book])
    rintro made v v' ⟨b, ts, w₁, ha, -, rfl⟩ hv
    exact action_marked ha hv

structure Minted (host : Host) (w w' : World) (o : Origin) : Prop where
  create : o.path = .create →
    w.book.nonces o.sender o.nonce = none ∧ w'.book.nonces o.sender o.nonce ≠ none
  split : o.path = .split → (∃ s, w.book.streams.lookup o.nonce = some s ∧ s.Live) ∧
    (o.id host ≠ o.nonce → ∀ s, w'.book.streams.lookup o.nonce = some s → ¬s.Live)

theorem exec_minted (hw : Accounts env.now w.book.streams) {call : StreamCall} (h : call.exec env w = .ok ids w') :
    ∀ o ∈ call.origins env w, Minted host w w' o := by
  intro o ho
  cases call with
  | createStream a =>
      obtain ⟨newId, _, h, -, rfl⟩ := bind_ok.mp h
      obtain ⟨-, -, fees, hc, rfl⟩ := createStream_ok h
      obtain rfl := List.mem_singleton.mp ho
      refine ⟨fun _ => ⟨hc.unused, ?_⟩, fun h => CreationPath.noConfusion h⟩
      simp [Book.add, Book.markNonce]
  | batchCreateStream a =>
      obtain ⟨entry, -, rfl⟩ := List.mem_map.mp ho
      exact ⟨fun h => CreationPath.noConfusion h, fun h => CreationPath.noConfusion h⟩
  | partialCancelStream id caller cancelAmount =>
      obtain ⟨newId, _, h, -, rfl⟩ := bind_ok.mp h
      obtain ⟨-, s, earned, streamed, -, -, hsplit, rfl⟩ := partialCancelStream_ok h
      obtain ⟨rfl, -⟩ := hw id s hsplit.stored
      simp only [StreamCall.origins, hsplit.stored, Option.toList_some, List.map_cons, List.map_nil,
        List.mem_singleton] at ho
      subst ho
      refine ⟨fun h => CreationPath.noConfusion h, fun _ => ⟨⟨s, hsplit.stored, hsplit.live⟩, ?_⟩⟩
      intro hother r hr
      let new := splitSuccessor host s.id s (s.clock env.now) (splitDeposit s streamed cancelAmount)
      change ((w.book.streams.insert s.id { s with status := .cancelled }).insert new.id new).lookup s.id =
        some r at hr
      have hne : s.id ≠ new.id := hother.symm
      rw [Finmap.lookup_insert_of_ne _ hne, Finmap.lookup_insert] at hr
      obtain rfl := Option.some.inj hr
      simp [Stream.Live]
  | _ => simp [StreamCall.origins] at ho

structure Registered (c : Chain) (events : List (Event host)) (c' : Chain) : Prop where
  distinct : (created c events).Nodup
  stored : ∀ id s, c'.world.book.streams.lookup id = some s → id ∈ created c events
  marked : ∀ o ∈ minted c events, o.path = .create → c'.world.book.nonces o.sender o.nonce ≠ none
  spent : ∀ o ∈ minted c events, o.path = .split → o.nonce ∈ created c events ∧
    ∀ s, c'.world.book.streams.lookup o.nonce = some s → ¬s.Live

/-- The only tuples the code lets two creations take are those that meet. -/
theorem Registered.meets {before : Chain} (h : Registered before events c) (hmint : Minted host c.world w' o)
    {o' : Origin} (ho' : o' ∈ minted before events) (hsame : o'.tuple = o.tuple) : o'.Meets o := by
  refine ⟨hsame, fun hpath => ?_⟩
  simp only [Origin.tuple, Prod.mk.injEq] at hsame
  obtain ⟨hsender, -, -, hnonce⟩ := hsame
  cases hp : o'.path with
  | batch => rfl
  | create =>
      have hmarked := h.marked o' ho' hp
      rw [hsender, hnonce] at hmarked
      exact absurd (hmint.create (hpath ▸ hp)).1 hmarked
  | split =>
      obtain ⟨⟨s, hs, hlive⟩, -⟩ := hmint.split (hpath ▸ hp)
      exact absurd hlive ((h.spent o' ho' hp).2 s (hnonce ▸ hs))

theorem step_minted {e : Event host} (hmay : May c e) (hw : Accounts c.now c.world.book.streams) :
    ∀ o ∈ c.origins e, Minted host c.world (c.step e).world o := by
  rcases step_cases hmay with ⟨hmade, -⟩ | ⟨env, call, made, v, rfl, hok, -⟩
  · rw [made_eq, List.map_eq_nil_iff] at hmade
    simp [hmade]
  · intro o ho
    rw [Chain.origins, hok] at ho
    exact exec_minted (hw.mono hmay.1) hok o ho

theorem step_made_nodup {e : Event host} (hmay : May c e) : (c.made e).Nodup := by
  rcases step_cases hmay with ⟨hmade, -⟩ | ⟨env, call, made, v, rfl, -, -, hnodup, -⟩
  · rw [hmade]
    exact List.nodup_nil
  · exact hnodup

/-- The hash does not collide on the tuples. -/
def Separated (host : Host) (os : List Origin) : Prop :=
  ∀ o ∈ os, ∀ o' ∈ os, o.id host = o'.id host → o.tuple = o'.tuple

instance (os : List Origin) : Decidable (Separated host os) :=
  inferInstanceAs (Decidable (∀ o ∈ os, ∀ o' ∈ os, o.id host = o'.id host → o.tuple = o'.tuple))

/-- No two creations share their tuple, but where the code itself rules that out. -/
abbrev Distinguished (os : List Origin) : Prop := os.Pairwise fun o o' => ¬o.Meets o'

theorem Registered.step {e : Event host} (h : Registered c events c') (hrun : SystemRun host c events c')
    (hmay : May c' e) (hw : Accounts c'.now c'.world.book.streams) (hhash : Separated host (minted c (events ++ [e])))
    (hapart : Distinguished (minted c (events ++ [e]))) : Registered c (events ++ [e]) (c'.step e) := by
  have hminted : minted c (events ++ [e]) = minted c events ++ c'.origins e := hrun.outputs_snoc e
  have hcreated : created c (events ++ [e]) = created c events ++ c'.made e := hrun.outputs_snoc e
  have hnew := step_minted hmay hw
  rw [hminted] at hhash hapart
  -- a new ID is none of the old ones
  have hfar : ∀ id ∈ created c events, id ∉ c'.made e := by
    intro id hold hmade
    rw [created_eq] at hold
    rw [made_eq] at hmade
    obtain ⟨o, ho, rfl⟩ := List.mem_map.mp hold
    obtain ⟨o', ho', hid⟩ := List.mem_map.mp hmade
    have hsame : o.tuple = o'.tuple := hhash o (by simp [ho]) o' (by simp [ho']) hid.symm
    exact (List.pairwise_append.mp hapart).2.2 o ho o' ho' (h.meets (hnew o' ho') ho hsame)
  refine ⟨?_, ?_, ?_, ?_⟩
  · rw [hcreated]
    exact List.nodup_append.mpr ⟨h.distinct, step_made_nodup hmay, fun a ha b hb hab => hfar a ha (hab ▸ hb)⟩
  · intro id s hs
    rw [hcreated, List.mem_append]
    by_cases hid : id ∈ c'.made e
    · exact .inr hid
    · obtain ⟨r, hr, -⟩ := step_descends hmay hw id hid s hs
      exact .inl (h.stored id r hr)
  · intro o ho hpath
    rw [hminted] at ho
    rcases List.mem_append.mp ho with ho | ho
    · exact step_marked hmay (h.marked o ho hpath)
    · exact ((hnew o ho).create hpath).2
  · intro o ho hpath
    rw [hminted] at ho
    rw [hcreated]
    rcases List.mem_append.mp ho with ho | ho
    · obtain ⟨hknown, hspent⟩ := h.spent o ho hpath
      refine ⟨List.mem_append_left _ hknown, ?_⟩
      intro s hs hlive
      obtain ⟨r, hr, hback⟩ := step_descends hmay hw o.nonce (hfar _ hknown) s hs
      exact hspent r hr (hback hlive)
    · obtain ⟨⟨s, hs, -⟩, hspent⟩ := (hnew o ho).split hpath
      have hknown := h.stored o.nonce s hs
      have hmade : o.id host ∈ c'.made e := by
        rw [made_eq]
        exact List.mem_map_of_mem ho
      exact ⟨List.mem_append_left _ hknown, hspent fun heq => hfar _ hknown (heq ▸ hmade)⟩

theorem registered_of_run (hfresh : Fresh host c) (hrun : SystemRun host c events c')
    (hhash : Separated host (minted c events)) (hapart : Distinguished (minted c events)) :
    Registered c events c' := by
  revert hhash hapart
  refine hrun.trace_inv (fun events c' => Separated host (minted c events) → Distinguished (minted c events) →
    Registered c events c') ?_ ?_
  · intro _ _
    refine ⟨List.nodup_nil, ?_, by simp [outputs], by simp [outputs]⟩
    intro id s hs
    simp [hfresh.book, Book.fresh] at hs
  · intro es s e hr ih hmay hhash hapart
    have hminted : minted c (es ++ [e]) = minted c es ++ s.origins e := hr.outputs_snoc e
    refine Registered.step (ih ?_ ?_) hr hmay (reached_accounts ⟨c, es, hfresh, hr⟩) hhash hapart
    · intro o ho o' ho'
      exact hhash o (by simp [hminted, ho]) o' (by simp [hminted, ho'])
    · rw [hminted] at hapart
      exact (List.pairwise_append.mp hapart).1

structure FreshIds (c : Chain) (events : List (Event host)) : Prop where
  distinct : (created c events).Nodup
  unstored : ∀ es e es', events = es ++ e :: es' →
    ∀ id ∈ (c.after es).made e, (c.after es).world.book.streams.lookup id = none

/-- Over a run in which the hash does not collide, the IDs are fresh exactly when no
tuple is taken by two creation paths or by two batches. -/
theorem ids_fresh_iff (hfresh : Fresh host c) (hrun : SystemRun host c events c')
    (hhash : Separated host (minted c events)) : FreshIds c events ↔ Distinguished (minted c events) := by
  constructor
  · intro hids
    have hdistinct := hids.distinct
    rw [created_eq] at hdistinct
    refine (List.pairwise_map.mp hdistinct).imp ?_
    rintro o o' hne ⟨hsame, -⟩
    simp only [Origin.tuple, Prod.mk.injEq] at hsame
    obtain ⟨hsender, hrecipient, hstart, hnonce⟩ := hsame
    exact hne (by rw [Origin.id, Origin.id, hsender, hrecipient, hstart, hnonce])
  · intro hapart
    have hall := registered_of_run hfresh hrun hhash hapart
    refine ⟨hall.distinct, ?_⟩
    rintro es e es' rfl id hid
    have hsplit : minted c (es ++ e :: es') = minted c es ++ minted (c.after es) (e :: es') := outputs_append c es _
    have hbefore : Registered c es (c.after es) := by
      refine registered_of_run hfresh hrun.left ?_ ?_
      · intro o ho o' ho'
        exact hhash o (by simp [hsplit, ho]) o' (by simp [hsplit, ho'])
      · rw [hsplit] at hapart
        exact (List.pairwise_append.mp hapart).1
    have hdistinct := hall.distinct
    have hcreated : created c (es ++ e :: es') = created c es ++ created (c.after es) (e :: es') :=
      outputs_append c es _
    rw [hcreated] at hdistinct
    rw [Option.eq_none_iff_forall_ne_some]
    intro s hs
    have hknown := hbefore.stored id s hs
    exact (List.nodup_append.mp hdistinct).2.2 id hknown id (List.mem_append_left _ hid) rfl

namespace Sample

def batchTerms : BatchArgs where
  sender := party 2
  recipients := [party 3, party 4]
  amounts := [(terms 0 0).amount, (terms 0 0).amount]
  tokens := [party 9, party 9]
  durationSeconds := 4000
  autoRenew := false
  lockUntils := [0, 0]
  nonce := 0

def splitting : Event site := call [2] 20 (.partialCancelStream streamId (party 2) ⟨50000, by decide⟩)

def mixed : List (Event site) := [opening 0 0, call [2] 15 (.batchCreateStream batchTerms), splitting]

/-- The sender uses the ID of its first stream as a nonce, then splits that stream. -/
def clashing : List (Event site) :=
  [opening 0 0, call [2] 20 (.createStream { terms 0 0 with nonce := 2310000 }), splitting]

end Sample

theorem sample_ids_fresh : FreshIds Sample.genesis Sample.mixed :=
  (ids_fresh_iff Sample.genesis_fresh (run_of_inOrder (by decide)) (by decide +kernel)).mpr (by decide +kernel)

/-- The successor of the split stream overwrites the second stream, whose 100000
tokens no record accounts for any more. -/
theorem split_overwrites :
    SystemRun Sample.site Sample.genesis Sample.clashing (Sample.genesis.after Sample.clashing) ∧
    Separated Sample.site (minted Sample.genesis Sample.clashing) ∧
    created Sample.genesis Sample.clashing = [2310000, 4630000, 4630000] ∧
    ((Sample.genesis.after (Sample.clashing.take 2)).world.book.streams.lookup 4630000).map Stream.deposit =
      some 100000 ∧
    ((Sample.genesis.after Sample.clashing).world.book.streams.lookup 4630000).map Stream.deposit = some 49750 ∧
    ¬FreshIds Sample.genesis Sample.clashing := by
  have hcreated : created Sample.genesis Sample.clashing = [2310000, 4630000, 4630000] := by decide +kernel
  refine ⟨run_of_inOrder (by decide), by decide +kernel, hcreated, by decide +kernel, by decide +kernel, ?_⟩
  intro hids
  have hdistinct := hids.distinct
  rw [hcreated] at hdistinct
  exact absurd hdistinct (by decide)

end SoroStream
