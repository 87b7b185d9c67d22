import SoroStream.AdminOnly
import SoroStream.Identity

namespace SoroStream

open Lib Lib.Rollback Lib.Rollback.Prog Lib.Runs Contract

variable {host : Host} {env : Env host} {w w' : World} {c c' : Chain} {e : Event host} {a : Address}
  {made : List Stream} {events : List (Event host)}

def ofSender (a : Address) (made : List Stream) : List Stream := made.filter fun s => s.sender = a

theorem ofSender_length_le (a : Address) (made : List Stream) : (ofSender a made).length ≤ made.length :=
  List.length_filter_le _ _

theorem ofSender_eq_nil (h : ∀ s ∈ made, s.sender ≠ a) : ofSender a made = [] :=
  List.filter_eq_nil_iff.mpr fun s hs => by simpa using h s hs

theorem add_size (b : Book) (s : Stream) (a : Address) :
    ((b.add s).senders a).size = (b.senders a).size + (ofSender a [s]).length := by
  by_cases hs : s.sender = a
  · subst hs
    simp [Book.add, ofSender]
  · simp [Book.add, ofSender, hs, Ne.symm hs]

theorem close_size_le (b : Book) (id : StreamId) (s : Stream) (a : Address) :
    ((b.close id s).senders a).size ≤ (b.senders a).size := by
  by_cases hs : a = s.sender
  · subst hs
    simpa [Book.close, Storage.unindex] using SlotArray.size_removeOr_le 0 (b.senders s.sender) id
  · simp [Book.close, hs]

/-- An action adds to a sender's index at most the records it makes. -/
theorem action_size_le {b : Book} {ts : List Transfer} (h : Action env w made b ts) (a : Address) :
    (b.senders a).size ≤ (w.book.senders a).size + (ofSender a made).length := by
  cases h with
  | nonceMarked | batchCounted | delegated | handedOver | toppedUp | paused | resumed | amended =>
      exact Nat.le_add_right _ _
  | opened s => exact (add_size w.book s a).le
  | withdrawn single id s claim w₁ out us h =>
      cases out with
      | none => exact (close_size_le w.book id _ a).trans (Nat.le_add_right _ _)
      | some s' => exact Nat.le_add_right _ _
  | closed id s | archived id s => exact (close_size_le w.book id s a).trans (Nat.le_add_right _ _)
  | split => exact (add_size _ _ a).le

theorem acts_size_le (h : Acts env made w w') (a : Address) :
    (w'.book.senders a).size ≤ (w.book.senders a).size + (ofSender a made).length := by
  induction h with
  | refl _ => exact Nat.le_add_right _ _
  | @tail as bs w v w' _ hlast ih =>
      obtain ⟨b, ts, w₁, ha, -, rfl⟩ := hlast
      have hstep := action_size_le ha a
      have hsum : (ofSender a (as ++ bs)).length = (ofSender a as).length + (ofSender a bs).length := by
        simp [ofSender]
      change (b.senders a).size ≤ _
      omega

theorem createStream_within {args : CreateArgs} {newId : StreamId} (h : createStream args env w = .ok newId w')
    (hlimit : Storage.getSenderStreamCount a w ≤ Storage.effectiveSenderLimit a w) :
    Storage.getSenderStreamCount a w' ≤ Storage.effectiveSenderLimit a w := by
  have hsize := acts_size_le (createStream_acts h).2 a
  have hroom := (createStream_admits h).2
  change (w'.book.senders a).size ≤ (w.book.senders a).size + _ at hsize
  by_cases hs : args.sender = a
  · subst hs
    have hone := ofSender_length_le args.sender [createdStream host args env.now]
    simp only [Storage.getSenderStreamCount, List.length_singleton] at hroom hone ⊢
    omega
  · have hothers : ∀ s ∈ [createdStream host args env.now], s.sender ≠ a :=
      fun s hmem => List.mem_singleton.mp hmem ▸ hs
    rw [ofSender_eq_nil hothers] at hsize
    exact hsize.trans hlimit

theorem batchCreateStream_within {args : BatchArgs} {ids : List StreamId}
    (h : batchCreateStream args env w = .ok ids w')
    (hlimit : Storage.getSenderStreamCount a w ≤ Storage.effectiveSenderLimit a w) :
    Storage.getSenderStreamCount a w' ≤ Storage.effectiveSenderLimit a w := by
  have hsize := acts_size_le (batchCreateStream_acts h).2.2 a
  have hroom := batchCreateStream_admits h
  have hentries := batchEntries_length_le host args env.now
  change (w'.book.senders a).size ≤ (w.book.senders a).size + _ at hsize
  by_cases hs : args.sender = a
  · subst hs
    have hall := ofSender_length_le args.sender
      ((batchEntries host args env.now).map (batchedStream args env.now))
    simp only [Storage.getSenderStreamCount, List.length_map] at hroom hall ⊢
    omega
  · have hothers : ∀ s ∈ (batchEntries host args env.now).map (batchedStream args env.now), s.sender ≠ a := by
      intro s hmem
      obtain ⟨entry, -, rfl⟩ := List.mem_map.mp hmem
      exact hs
    rw [ofSender_eq_nil hothers] at hsize
    exact hsize.trans hlimit

/-- A partial cancellation leaves its sender with one more stream on the index. -/
theorem partialCancelStream_size {id newId : StreamId} {caller : Address} {cancelAmount : Int}
    (h : partialCancelStream id caller cancelAmount env w = .ok newId w') : ∃ s, w.book.streams.lookup id = some s ∧
      Storage.getSenderStreamCount a w' = Storage.getSenderStreamCount a w + if s.sender = a then 1 else 0 := by
  obtain ⟨-, s, earned, streamed, -, -, hsplit, rfl⟩ := partialCancelStream_ok h
  refine ⟨s, hsplit.stored, (add_size _ _ a).trans ?_⟩
  by_cases hs : s.sender = a
  · simp [ofSender, splitSuccessor, successor, hs, Storage.getSenderStreamCount, Book.save]
  · simp [ofSender, splitSuccessor, successor, hs, Storage.getSenderStreamCount, Book.save]

def WithinLimit (a : Address) (w : World) : Prop :=
  Storage.getSenderStreamCount a w ≤ Storage.effectiveSenderLimit a w

instance (a : Address) (w : World) : Decidable (WithinLimit a w) := inferInstanceAs (Decidable (_ ≤ _))

def Chain.KeepsLimit (c : Chain) (a : Address) (e : Event host) : Prop :=
  Storage.effectiveSenderLimit a c.world ≤ Storage.effectiveSenderLimit a (c.step e).world

/-- A successful partial cancellation of a stream whose sender is at the limit. -/
def Chain.Overfills (c : Chain) (a : Address) : Event host → Prop
  | .call env (.stream (.partialCancelStream id caller cancelAmount)) =>
      (partialCancelStream id caller cancelAmount.val env c.world).value?.isSome = true ∧
      (c.world.book.streams.lookup id).map Stream.sender = some a ∧
      Storage.effectiveSenderLimit a c.world ≤ Storage.getSenderStreamCount a c.world
  | _ => False

instance (c : Chain) (a : Address) (e : Event host) : Decidable (c.KeepsLimit a e) :=
  inferInstanceAs (Decidable (_ ≤ _))

instance : ∀ (c : Chain) (a : Address) (e : Event host), Decidable (c.Overfills a e)
  | _, _, .call _ (.stream (.partialCancelStream _ _ _)) => inferInstanceAs (Decidable (_ ∧ _ ∧ _))
  | _, _, .call _ (.stream (.createStream _)) => .isFalse fun h => h
  | _, _, .call _ (.stream (.batchCreateStream _)) => .isFalse fun h => h
  | _, _, .call _ (.stream (.withdraw _ _)) => .isFalse fun h => h
  | _, _, .call _ (.stream (.batchWithdraw _ _)) => .isFalse fun h => h
  | _, _, .call _ (.stream (.cancelStream _ _)) => .isFalse fun h => h
  | _, _, .call _ (.stream (.batchCancelStream _ _)) => .isFalse fun h => h
  | _, _, .call _ (.stream (.recipientTerminate _ _)) => .isFalse fun h => h
  | _, _, .call _ (.stream (.transferRecipient _ _ _)) => .isFalse fun h => h
  | _, _, .call _ (.stream (.topUp _ _ _ _)) => .isFalse fun h => h
  | _, _, .call _ (.stream (.pauseStream _ _)) => .isFalse fun h => h
  | _, _, .call _ (.stream (.resumeStream _ _)) => .isFalse fun h => h
  | _, _, .call _ (.stream (.archiveStream _ _)) => .isFalse fun h => h
  | _, _, .call _ (.stream (.delegate _ _ _)) => .isFalse fun h => h
  | _, _, .call _ (.stream (.revokeDelegate _ _)) => .isFalse fun h => h
  | _, _, .call _ (.stream (.updateMetadata _ _ _)) => .isFalse fun h => h
  | _, _, .call _ (.stream (.cancelAutoRenew _ _)) => .isFalse fun h => h
  | _, _, .call _ (.config _) => .isFalse fun h => h
  | _, _, .call _ (.view _) => .isFalse fun h => h
  | _, _, .treasury _ _ => .isFalse fun h => h
  | _, _, .tokens _ _ => .isFalse fun h => h

theorem limit_congr (h : w'.config = w.config) (a : Address) :
    Storage.effectiveSenderLimit a w' = Storage.effectiveSenderLimit a w := by
  simp only [Storage.effectiveSenderLimit, Storage.getSenderLimit, Storage.getMaxStreamsPerSender, h]

theorem streamCall_keepsLimit (env : Env host) (k : StreamCall) : c.KeepsLimit a (.call env (.stream k)) := by
  rcases step_config c (.call env (.stream k)) with h | ⟨_, _, heq, -⟩
  · exact (limit_congr h a).ge
  · exact Call.noConfusion (Event.call.inj heq).2

theorem streamCall_within {k : StreamCall} {ids : List StreamId}
    (hother : ∀ id caller cancelAmount, k ≠ .partialCancelStream id caller cancelAmount)
    (h : k.exec env w = .ok ids w') (hlimit : WithinLimit a w) :
    Storage.getSenderStreamCount a w' ≤ Storage.effectiveSenderLimit a w := by
  have hnone : ids = [] → Storage.getSenderStreamCount a w' ≤ Storage.effectiveSenderLimit a w := by
    rintro rfl
    obtain ⟨made, hmade, -, hacts | hacts⟩ := streamCall_acts h
    · obtain rfl := List.map_eq_nil_iff.mp hmade
      exact (acts_size_le hacts a).trans hlimit
    · obtain rfl := List.map_eq_nil_iff.mp hmade
      exact (acts_size_le hacts a).trans hlimit
  cases k with
  | createStream args =>
      obtain ⟨_, _, h, -, rfl⟩ := bind_ok.mp h
      exact createStream_within h hlimit
  | batchCreateStream args => exact batchCreateStream_within h hlimit
  | partialCancelStream id caller cancelAmount => exact absurd rfl (hother id caller cancelAmount)
  | _ =>
      obtain ⟨_, _, -, hids⟩ := bind_ok.mp h
      exact hnone (pure_ok.mp hids).1.symm

theorem step_within (hmay : May c e) (hkeeps : c.KeepsLimit a e) (hroom : ¬c.Overfills a e)
    (hlimit : WithinLimit a c.world) : WithinLimit a (c.step e).world := by
  rcases step_cases hmay with ⟨-, haside⟩ | ⟨env, k, _, _, rfl, hok, -, -, -, -⟩
  · rw [WithinLimit, Storage.getSenderStreamCount, haside.book]
    exact hlimit.trans hkeeps
  · refine le_trans ?_ hkeeps
    by_cases hsplit : ∃ id caller cancelAmount, k = .partialCancelStream id caller cancelAmount
    · obtain ⟨id, caller, cancelAmount, rfl⟩ := hsplit
      obtain ⟨newId, w', h, hpure⟩ := bind_ok.mp hok
      obtain ⟨s, hs, hsize⟩ := partialCancelStream_size (a := a) h
      rw [← (pure_ok.mp hpure).2, hsize]
      split
      · next hsender =>
          have hbelow : ¬Storage.effectiveSenderLimit a c.world ≤ Storage.getSenderStreamCount a c.world :=
            fun hfull => hroom ⟨by rw [h]; rfl, by rw [hs, ← hsender]; rfl, hfull⟩
          omega
      · exact hlimit
    · exact streamCall_within (fun id caller amount heq => hsplit ⟨id, caller, amount, heq⟩) hok hlimit

theorem overfills_breaks (h : c.Overfills a e) : ¬WithinLimit a (c.step e).world := by
  cases e with
  | treasury => exact h.elim
  | tokens => exact h.elim
  | call env call =>
      cases call with
      | config => exact h.elim
      | view => exact h.elim
      | stream k =>
          cases k with
          | partialCancelStream id caller cancelAmount =>
              obtain ⟨hok, hsender, hfull⟩ := h
              obtain ⟨newId, hvalue⟩ := Option.isSome_iff_exists.mp hok
              obtain ⟨w', h⟩ := Outcome.value?_eq_some.mp hvalue
              obtain ⟨s, hs, hsize⟩ := partialCancelStream_size (a := a) h
              have hexec : (StreamCall.partialCancelStream id caller cancelAmount).exec env c.world = .ok [newId] w' :=
                bind_ok.mpr ⟨newId, w', h, rfl⟩
              have hstep : (c.step (.call env (.stream (.partialCancelStream id caller cancelAmount)))).world = w' := by
                simp only [Chain.step, Call.exec, hexec, Outcome.commit_ok]
              have hmine : s.sender = a := by
                rw [hs] at hsender
                exact Option.some.inj hsender
              rw [WithinLimit, hstep, limit_congr (streamCall_sameConfig hexec), hsize, if_pos hmine]
              omega
          | _ => exact h.elim

theorem Fresh.within (h : Fresh host c) (a : Address) : WithinLimit a c.world := by
  rw [WithinLimit, Storage.getSenderStreamCount, h.book]
  exact Nat.zero_le _

/-- While its limit is not lowered, a sender stays within it exactly as long as nobody
splits one of its streams at the limit. -/
theorem sender_limit_iff (hstart : WithinLimit a c.world) (hrun : SystemRun host c events c')
    (hkeeps : Throughout Chain.step (fun c e => Chain.KeepsLimit c a e) c events) :
    (∀ es, es <+: events → WithinLimit a (c.after es).world) ↔
      Throughout Chain.step (fun c e => ¬Chain.Overfills c a e) c events := by
  have hboth : Run (fun c e => May c e ∧ c.KeepsLimit a e) Chain.step c events c' :=
    hrun.restrict fun es e es' heq hmay => ⟨hmay, (throughout_iff c events).mp hkeeps es e es' heq⟩
  refine hboth.always_iff (fun c => WithinLimit a c.world) hstart ?_ (fun _ h => h) ?_
  · intro c e hlimit hmay hroom
    exact step_within hmay.1 hmay.2 hroom hlimit
  · intro c e _ _ hbad
    exact overfills_breaks (not_not.mp hbad)

namespace Sample

def raised : List (Event site) :=
  [configure [4] 1 (.initializeContract (party 4) "1.0.0"), configure [4] 2 (.setMaxStreams 2000),
    opening 0 0, splitting]

end Sample

theorem sample_sender_limit : WithinLimit (Sample.party 2) (Sample.genesis.after Sample.raised).world :=
  (sender_limit_iff (Sample.genesis_fresh.within _) (run_of_inOrder (by decide)) (by decide +kernel)).mpr
    (by decide +kernel) Sample.raised List.prefix_rfl

namespace Sample

def wealthy : Chain :=
  { genesis with world := { genesis.world with balances := fun _ a => if a.raw ≤ 1 then 0 else 1000000000 } }

theorem wealthy_fresh : Fresh site wealthy :=
  ⟨rfl, rfl, rfl, rfl, rfl, by decide, fun _ => by simp [wealthy, site, party]⟩

def numberedTerms (n : Nat) : CreateArgs := { terms 0 0 with nonce := OfNat.ofNat n }

def numbered (n : Nat) : Event site := call [2] 10 (.createStream (numberedTerms n))

def numberedStream (n : Nat) : Stream := { createdStream site (terms 0 0) 10 with id := streamId + n }

structure Filled (n : Nat) (c : Chain) : Prop where
  now : c.now ≤ 10
  config : c.world.config = Config.fresh
  pause : c.world.pause = ⟨none, none⟩
  sent : (c.world.book.senders (party 2)).size = n
  received : (c.world.book.recipients (party 3)).size = n
  listed : c.world.book.globalIndex.size = n
  free : ∀ i, n ≤ i → c.world.book.streams.lookup (streamId + i) = none
  unused : ∀ i, n ≤ i → c.world.book.nonces (party 2) i = none
  funds : c.world.balances (party 9) (party 2) = 1000000000 - 100000 * n
  pot : c.world.balances (party 9) (party 0) = 100000 * n
  first : 0 < n → c.world.book.streams.lookup streamId = some (numberedStream 0)

theorem numbered_stream {n : Nat} (hn : n < 1000) :
    createdStream site (numberedTerms n) 10 = numberedStream n := by
  have hid : Storage.deriveStreamId site (party 2) (party 3) 10 (OfNat.ofNat n : U64).val = streamId + n := by
    change (2 * 1000000 + 3 * 100000 + 10 * 1000 + n % 2 ^ 64) % 2 ^ 64 = 2310000 + n
    omega
  simp only [createdStream, numberedTerms, terms, hid, numberedStream]

theorem numberedStream_opening (n : Nat) : Opening (signed [2] 10) (numberedStream n) 4000 := by
  have h : Opening (signed [2] 10) (createdStream site (terms 0 0) 10) 4000 :=
    ⟨by decide, rfl, by decide, by decide, by decide, rfl, rfl, by decide, by decide, by decide, by decide⟩
  exact ⟨h.signed, h.active, h.funded, h.rate, h.long, h.start, h.stop, h.fits, h.cliff, h.lock, h.untouched⟩

variable {n : Nat} {c : Chain}

theorem Filled.creation (h : Filled n c) (hn : n < 1000) : Creation (signed [2] 10)
    (c.world.awake (signed [2] 10).now) (numberedTerms n) [] := by
  have hfunds := h.funds
  refine ⟨?_, ?_, ?_, ?_, ?_, ?_⟩
  · change c.world.book.nonces (party 2) (n % 2 ^ 64) = none
    rw [Nat.mod_eq_of_lt (by omega)]
    exact h.unused n le_rfl
  · exact (numbered_stream hn).symm ▸ numberedStream_opening n
  · change c.world.book.streams.lookup (createdStream site (numberedTerms n) 10).id = none
    rw [numbered_stream hn]
    exact h.free n le_rfl
  · simp [creationFees, Storage.getCreationFeeXlm, h.config, Config.fresh]
  · change Payable _ _ (lockTransfer site (createdStream site (numberedTerms n) 10))
    rw [numbered_stream hn, pay_nil]
    refine ⟨(by decide : (0 : Int) ≤ 100000), ?_, rfl⟩
    change (100000 : Int) ≤ c.world.balances (party 9) (party 2)
    omega
  · change (c.world.book.senders (party 2)).size + 1 ≤ u32Max ∧ (c.world.book.recipients (party 3)).size + 1 ≤ u32Max ∧
      c.world.book.globalIndex.size + 1 ≤ u32Max
    rw [h.sent, h.received, h.listed, u32Max]
    omega

theorem Filled.world_eq (h : Filled n c) (hn : n < 1000) : (c.step (numbered n)).world =
    ((c.world.awake 10).pay [lockTransfer site (numberedStream n)]).withBook
      ((c.world.book.markNonce (party 2) n).add (numberedStream n)) := by
  have hok := createStream_available (by rw [h.pause]; rfl) (h.creation hn)
    (by simp [Storage.getCreationFeeXlm, h.config, Config.fresh]) (by decide : (0 : Nat) < 4000)
    (by decide : (0 : Nat) ≤ 64) (by simp [Storage.isWhitelistEnabled, h.config, Config.fresh])
    (by rw [Storage.readMinDuration, h.config]; exact (by decide : (3600 : Nat) ≤ 4000)) ?_
  · have hnonce : (numberedTerms n).nonce.val = n := Nat.mod_eq_of_lt (by omega)
    change createStream _ _ _ = .ok (createdStream site (numberedTerms n) 10).id
      (((c.world.awake 10).pay [lockTransfer site (createdStream site (numberedTerms n) 10)]).withBook
        ((c.world.book.markNonce (party 2) (numberedTerms n).nonce.val).add
          (createdStream site (numberedTerms n) 10))) at hok
    rw [numbered_stream hn, hnonce] at hok
    simp only [numbered, call, Chain.step, Call.exec, StreamCall.exec, bind_apply hok, pure_apply, Outcome.commit_ok]
  · change (c.world.book.senders (party 2)).size < _
    simp only [Storage.effectiveSenderLimit, Storage.getSenderLimit, Storage.getMaxStreamsPerSender, h.config,
      Config.fresh, h.sent, Option.getD_none]
    exact hn

theorem Filled.next (h : Filled n c) (hn : n < 1000) : Filled (n + 1) (c.step (numbered n)) := by
  have hworld := h.world_eq hn
  have hsettled : (c.world.awake 10).pause = ⟨none, none⟩ := by
    rw [World.awake, h.pause]
    rfl
  have hsize : ∀ (f : Address → SlotArray StreamId) a id,
      (Function.update f a ((f a).push id) a).size = (f a).size + 1 :=
    fun f a id => by rw [Function.update_self, SlotArray.size_push]
  refine ⟨le_rfl, ?_, ?_, ?_, ?_, ?_, ?_, ?_, ?_, ?_, ?_⟩ <;> rw [hworld]
  · exact h.config
  · exact hsettled
  · exact (hsize c.world.book.senders (party 2) _).trans (congrArg (· + 1) h.sent)
  · exact (hsize c.world.book.recipients (party 3) _).trans (congrArg (· + 1) h.received)
  · exact (SlotArray.size_push ..).trans (congrArg (· + 1) h.listed)
  · intro i hi
    have hne : streamId + i ≠ (numberedStream n).id := by
      intro heq
      have hin : i = n := Nat.add_left_cancel heq
      omega
    exact (Finmap.lookup_insert_of_ne _ hne).trans (h.free i (by omega))
  · intro i hi
    have hne : i ≠ n := by omega
    change Function.update c.world.book.nonces (party 2)
      (Function.update (c.world.book.nonces (party 2)) n (some true)) (party 2) i = none
    rw [Function.update_self, Function.update_of_ne hne]
    exact h.unused i (by omega)
  · have hfunds := h.funds
    change ((c.world.awake 10).pay [lockTransfer site (numberedStream n)]).balances (party 9) (party 2) = _
    rw [pay_balances]
    change c.world.balances (party 9) (party 2) - 100000 + 0 = _
    omega
  · have hpot := h.pot
    change ((c.world.awake 10).pay [lockTransfer site (numberedStream n)]).balances (party 9) (party 0) = _
    rw [pay_balances]
    change c.world.balances (party 9) (party 0) - 0 + 100000 = _
    omega
  · intro _
    change (c.world.book.streams.insert (streamId + n) (numberedStream n)).lookup streamId = _
    by_cases hn : n = 0
    · subst hn
      exact Finmap.lookup_insert _
    · have hne : streamId ≠ streamId + n := fun heq => hn (Nat.left_eq_add.mp heq)
      exact (Finmap.lookup_insert_of_ne _ hne).trans (h.first (by omega))

def filling (n : Nat) : List (Event site) := (List.range n).map numbered

theorem filling_run (hn : n ≤ 1000) :
    SystemRun site wealthy (filling n) (wealthy.after (filling n)) ∧ Filled n (wealthy.after (filling n)) := by
  induction n with
  | zero => exact ⟨.nil, by decide, rfl, rfl, rfl, rfl, rfl, fun _ _ => rfl, fun _ _ => rfl, rfl, rfl,
      fun h => absurd h (lt_irrefl 0)⟩
  | succ n ih =>
      obtain ⟨hrun, hfilled⟩ := ih (by omega)
      have hnext : filling (n + 1) = filling n ++ [numbered n] := by
        rw [filling, List.range_succ, List.map_append]
        rfl
      have hafter : wealthy.after (filling n ++ [numbered n]) = (wealthy.after (filling n)).step (numbered n) :=
        List.foldl_append ..
      rw [hnext, hafter]
      exact ⟨hrun.snoc ⟨hfilled.now, trivial⟩, hfilled.next (by omega)⟩

theorem Filled.split (h : Filled n c) (hpos : 0 < n) (hn : n ≤ 1000) :
    Split (signed [2] 20) c.world streamId (numberedStream 0) 50000 250 250 := by
  have hpot := h.pot
  refine ⟨h.first hpos, .inl rfl, by decide, by decide, by decide, by decide, by decide, by decide, by decide,
    ?_, ?_, ?_⟩
  · intro _
    refine ⟨(by decide : (0 : Int) ≤ 250), ?_, rfl⟩
    change (250 : Int) ≤ c.world.balances (party 9) (party 0)
    omega
  · refine ⟨(by decide : (0 : Int) ≤ 50000), ?_, rfl⟩
    change (50000 : Int) ≤ (c.world.pay [claimTransfer site (numberedStream 0) 250]).balances (party 9) (party 0)
    rw [pay_balances]
    change (50000 : Int) ≤ c.world.balances (party 9) (party 0) - 250 + 0
    omega
  · change (c.world.book.senders (party 2)).size + 1 ≤ u32Max ∧ (c.world.book.recipients (party 3)).size + 1 ≤ u32Max ∧
      c.world.book.globalIndex.size + 1 ≤ u32Max
    rw [h.sent, h.received, h.listed, u32Max]
    omega

theorem filling_keepsLimit (n : Nat) : Throughout Chain.step (fun c e => Chain.KeepsLimit c (party 2) e) wealthy
    (filling n ++ [splitting]) := by
  refine (throughout_iff _ _).mpr fun es e es' heq => ?_
  have hmem : e ∈ filling n ++ [splitting] := by simp [heq]
  rcases List.mem_append.mp hmem with hmem | hmem
  · obtain ⟨i, -, rfl⟩ := List.mem_map.mp hmem
    exact streamCall_keepsLimit _ _
  · rw [List.mem_singleton.mp hmem]
    exact streamCall_keepsLimit _ _

theorem Filled.overfills (h : Filled n c) (hn : n = 1000) : c.Overfills (party 2) splitting := by
  have hauth : (signed [2] 20).auths (party 2) = true := by decide
  have hok := partialCancelStream_available hauth (.inl rfl) (by decide) (h.split (by omega) hn.le)
  refine ⟨?_, ?_, ?_⟩
  · change (partialCancelStream _ _ (50000 : Int) _ _).value?.isSome = true
    rw [hok]
    rfl
  · rw [h.first (by omega)]
    rfl
  · simp only [Storage.effectiveSenderLimit, Storage.getSenderLimit, Storage.getMaxStreamsPerSender, h.config,
      Config.fresh, Storage.getSenderStreamCount, h.sent, hn, Option.getD_none, le_refl]

theorem filling_exceeds (hn : n = 1000) :
    SystemRun site wealthy (filling n ++ [splitting]) ((wealthy.after (filling n)).step splitting) ∧
    Throughout Chain.step (fun c e => Chain.KeepsLimit c (party 2) e) wealthy (filling n ++ [splitting]) ∧
    ¬WithinLimit (party 2) ((wealthy.after (filling n)).step splitting).world := by
  obtain ⟨hrun, hfilled⟩ := filling_run hn.le
  have hlast : May (wealthy.after (filling n)) splitting := ⟨hfilled.now.trans (by decide), trivial⟩
  exact ⟨hrun.snoc hlast, filling_keepsLimit n, overfills_breaks (hfilled.overfills hn)⟩

end Sample

theorem split_exceeds_limit :
    Fresh Sample.site Sample.wealthy ∧
    SystemRun Sample.site Sample.wealthy (Sample.filling 1000 ++ [Sample.splitting])
      ((Sample.wealthy.after (Sample.filling 1000)).step Sample.splitting) ∧
    Throughout Chain.step (fun c e => Chain.KeepsLimit c (Sample.party 2) e) Sample.wealthy
      (Sample.filling 1000 ++ [Sample.splitting]) ∧
    ¬WithinLimit (Sample.party 2) ((Sample.wealthy.after (Sample.filling 1000)).step Sample.splitting).world :=
  ⟨Sample.wealthy_fresh, Sample.filling_exceeds rfl⟩

end SoroStream
