import SoroStream.Identity
import SoroStream.Lib.OwnerIndex

namespace SoroStream

open Lib Lib.Rollback Lib.Rollback.Prog Lib.Runs Contract

variable {host : Host} {env : Env host} {w w' : World} {c : Chain} {id : StreamId} {q s : Stream} {b : Book}
  {made : List Stream}

structure Indexed (b : Book) : Prop where
  senders : Filed Stream.sender b.senders b.streams
  recipients : Filed Stream.recipient b.recipients b.streams

namespace Indexed

theorem save (h : Indexed b) (hs : b.streams.lookup s.id = some s) (hid : q.id = s.id)
    (hsender : q.sender = s.sender) (hrecipient : q.recipient = s.recipient) : Indexed (b.save q) := by
  refine ⟨?_, ?_⟩
  · exact h.senders.replace (hid ▸ hs) hsender
  · exact h.recipients.replace (hid ▸ hs) hrecipient

theorem add (h : Indexed b) (hfree : b.streams.lookup s.id = none) : Indexed (b.add s) :=
  ⟨h.senders.insert hfree, h.recipients.insert hfree⟩

theorem close (h : Indexed b) (hs : b.streams.lookup id = some s) : Indexed (b.close id s) :=
  ⟨h.senders.erase hs 0, h.recipients.erase hs 0⟩

theorem handOver (h : Indexed b) (hs : b.streams.lookup s.id = some s) (hid : q.id = s.id)
    (hsender : q.sender = s.sender) : Indexed ((b.save q).handOver s.id s.recipient q.recipient) := by
  refine ⟨?_, ?_⟩
  · exact h.senders.replace (hid ▸ hs) hsender
  · have hmoved := h.recipients.move (q := q) hs 0
    rwa [← hid] at hmoved ⊢

end Indexed

theorem action_indexed {ts : List Transfer} (h : Action env w made b ts)
    (hw : Accounts env.now w.book.streams) (hx : Indexed w.book)
    (hfree : ∀ m ∈ made, w.book.streams.lookup m.id = none) : Indexed b := by
  cases h with
  | nonceMarked | batchCounted | delegated => exact ⟨hx.senders, hx.recipients⟩
  | opened s duration fees h hnew => exact hx.add hnew
  | withdrawn single id s claim w₁ out us h =>
      obtain ⟨rfl, -⟩ := hw id s h.stored
      have hset := h.settled
      cases hset with
      | running | renewed | lapsed => exact hx.save h.stored rfl rfl rfl
      | finished =>
          have hclosed : Indexed (w.book.close s.id s) := hx.close h.stored
          exact hclosed
  | handedOver id s claim w₁ recipient h =>
      obtain ⟨rfl, -⟩ := hw id s h.stored
      have hid := advance_id s claim (s.clock env.now)
      exact hx.handOver (q := { s.advance claim _ with recipient := recipient }) h.stored hid
        (advance_sender s claim _)
  | closed id s t amount hs => exact hx.close hs
  | archived id s h =>
      obtain ⟨hsenders, hrecipients⟩ := hx.close h.stored
      exact ⟨hsenders, hrecipients⟩
  | split id s cancelAmount earned streamed h =>
      obtain ⟨rfl, -⟩ := hw id s h.stored
      have hcancelled : Indexed (w.book.save { s with status := .cancelled }) :=
        hx.save (q := { s with status := .cancelled }) h.stored rfl rfl rfl
      refine hcancelled.add ?_
      have hnew := hfree _ (List.mem_singleton_self _)
      have hne : (splitSuccessor host s.id s (s.clock env.now) (splitDeposit s streamed cancelAmount)).id ≠ s.id := by
        intro heq
        rw [heq, h.stored] at hnew
        exact Option.some_ne_none s hnew
      exact (Finmap.lookup_insert_of_ne _ hne).trans hnew
  | toppedUp id s caller amount h =>
      obtain ⟨rfl, -⟩ := hw id s h.stored
      exact hx.save (q := s.toppedUp _) h.stored rfl rfl rfl
  | paused id s hs =>
      obtain ⟨rfl, -⟩ := hw id s hs
      exact hx.save (q := { s with status := .paused, lastPauseTime := env.now }) hs rfl rfl rfl
  | resumed id s hs =>
      obtain ⟨rfl, -⟩ := hw id s hs
      exact hx.save (q := resumed s (env.now - s.lastPauseTime)) hs rfl rfl rfl
  | amended id s metadata autoRenew hs =>
      obtain ⟨rfl, -⟩ := hw id s hs
      exact hx.save (q := { s with metadata, autoRenew }) hs rfl rfl rfl

/-- The records a call makes may not be stored before it, and it makes each ID once. -/
theorem acts_indexed (h : Acts env made w w') (hw : Accounts env.now w.book.streams) (hx : Indexed w.book)
    (hnodup : (made.map Stream.id).Nodup) (hfree : ∀ m ∈ made, w.book.streams.lookup m.id = none) :
    Indexed w'.book := by
  induction h with
  | refl w => exact hx
  | @tail as bs w v w' hfirst hlast ih =>
      rw [List.map_append, List.nodup_append] at hnodup
      obtain ⟨hdescends, haccounts⟩ := acts_descends hfirst hw
      have hv : Indexed v.book := ih hw hx hnodup.1 fun m hm => hfree m (List.mem_append_left _ hm)
      -- what the first actions left free is still free
      have hstill : ∀ m ∈ bs, v.book.streams.lookup m.id = none := by
        intro m hm
        rw [Option.eq_none_iff_forall_ne_some]
        intro s hs
        have hold : m.id ∉ as.map Stream.id :=
          fun hid => hnodup.2.2 m.id hid m.id (List.mem_map_of_mem hm) rfl
        obtain ⟨r, hr, -⟩ := hdescends m.id hold s hs
        exact Option.some_ne_none r (hr.symm.trans (hfree m (List.mem_append_right _ hm)))
      obtain ⟨b, ts, w₁, ha, -, rfl⟩ := hlast
      exact action_indexed ha haccounts hv hstill

def MayAnew (c : Chain) (e : Event host) : Prop :=
  May c e ∧ ∀ id ∈ c.made e, c.world.book.streams.lookup id = none

abbrev ReachedAnew (host : Host) (c : Chain) : Prop :=
  Reachable (Fresh host) (@MayAnew host) Chain.step c

theorem step_indexed {e : Event host} (hmay : MayAnew c e) (hw : Accounts c.now c.world.book.streams)
    (hx : Indexed c.world.book) : Indexed (c.step e).world.book := by
  obtain ⟨hmay, hanew⟩ := hmay
  rcases step_cases hmay with ⟨-, haside⟩ | ⟨env, call, made, v, rfl, -, hids, hnodup, haside, hacts⟩
  · rwa [haside.book]
  · refine acts_indexed hacts ?_ ?_ (hids ▸ hnodup) ?_
    · rw [haside.book]
      exact hw.mono hmay.1
    · rwa [haside.book]
    · intro m hm
      rw [haside.book]
      exact hanew m.id (hids ▸ List.mem_map_of_mem hm)

theorem reached_indexed (h : ReachedAnew host c) : Reached host c ∧ Indexed c.world.book := by
  refine h.inv (fun c => Reached host c ∧ Indexed c.world.book) ?_ ?_
  · intro c hc
    refine ⟨⟨c, [], hc, .nil⟩, ?_⟩
    rw [hc.book]
    exact ⟨.empty, .empty⟩
  · rintro c e ⟨hreached, hx⟩ hmay
    exact ⟨hreached.next hmay.1, step_indexed hmay (reached_accounts hreached) hx⟩

theorem FreshIds.reachedAnew {events : List (Event host)} {c' : Chain} (h : FreshIds c events)
    (hfresh : Fresh host c) (hrun : SystemRun host c events c') : ReachedAnew host c' := by
  refine ⟨c, events, hfresh, hrun.restrict ?_⟩
  rintro es e es' rfl hmay
  rw [← Chain.after] at hmay ⊢
  exact ⟨hmay, h.unstored es e es' rfl⟩

structure Consistent (streams : Streams) (index : SlotArray StreamId) (pages : Nat → Nat → List Stream)
    (mine : Stream → Prop) : Prop where
  present : ∀ i < index.size, (index.slot i).isSome
  absent : ∀ i, index.size ≤ i → index.slot i = none
  distinct : index.toList.Nodup
  exact : ∀ id, id ∈ index.toList ↔ ∃ s, streams.lookup id = some s ∧ mine s
  paged : ∀ k n, 1 ≤ k → k ≤ 20 → index.size ≤ n * k →
    ((List.range n).flatMap fun i => pages (i * k) k).Nodup ∧
    ∀ s, s ∈ (List.range n).flatMap (fun i => pages (i * k) k) ↔ streams.lookup s.id = some s ∧ mine s
  fallback : ∀ d id, index.removeOr d id = index.removeOr 0 id

theorem flatMap_pageOfStreams {l : List StreamId} {k n : Nat} (hk : k ≤ 20) (hall : l.length ≤ n * k) :
    (List.range n).flatMap (fun i => pageOfStreams l (i * k) k w) =
      l.filterMap fun id => Storage.loadStream id w := by
  have hpages : (fun i => pageOfStreams l (i * k) k w) =
      fun i => (page l (i * k) k).filterMap fun id => Storage.loadStream id w := by
    funext i
    rw [pageOfStreams, min_eq_left hk]
  rw [hpages, ← List.filterMap_flatMap, flatMap_page, List.take_of_length_le hall]

theorem consistent_of_lists {now : Nat} {index : SlotArray StreamId} {mine : Stream → Prop}
    (hw : Accounts now w.book.streams)
    (h : index.Lists fun id => ∃ s, w.book.streams.lookup id = some s ∧ mine s) :
    Consistent w.book.streams index (fun start limit => pageOfStreams index.toList start limit w) mine := by
  refine ⟨fun i => h.present, fun i => h.absent, h.nodup, fun id => h.mem_iff, ?_,
    fun d id => h.removeOr_default d 0 id⟩
  intro k n _ hk hall
  rw [flatMap_pageOfStreams hk (h.length_eq.trans_le hall)]
  refine ⟨?_, ?_⟩
  · refine h.nodup.filterMap ?_
    intro id id' s hs hs'
    exact ((hw id s hs).1).symm.trans (hw id' s hs').1
  · intro s
    rw [List.mem_filterMap]
    constructor
    · rintro ⟨id, hid, hs⟩
      obtain ⟨r, hr, hmine⟩ := h.mem_iff.mp hid
      obtain rfl := Option.some.inj (hr.symm.trans hs)
      obtain rfl := (hw id r hr).1
      exact ⟨hr, hmine⟩
    · rintro ⟨hs, hmine⟩
      exact ⟨s.id, h.mem_iff.mpr ⟨s, hs, hmine⟩, hs⟩

/-- In every state reached without storing a new record over an old one, the indexes
of each address are its streams, and its pages show each of them once. -/
theorem indexes_consistent (h : ReachedAnew host c) (a : Address) :
    Consistent c.world.book.streams (c.world.book.senders a)
      (fun start limit => getStreamsBySender a start limit c.world) (fun s => s.sender = a) ∧
    Consistent c.world.book.streams (c.world.book.recipients a)
      (fun start limit => getStreamsByRecipient a start limit c.world) (fun s => s.recipient = a) := by
  obtain ⟨hreached, hx⟩ := reached_indexed h
  have hw := reached_accounts hreached
  exact ⟨consistent_of_lists hw (hx.senders a), consistent_of_lists hw (hx.recipients a)⟩

namespace Sample

def grown : Chain := ((genesis.step (opening 0 0)).step (call [2] 15 (.batchCreateStream batchTerms))).step splitting

end Sample

theorem sample_indexes_consistent :
    Consistent Sample.grown.world.book.streams (Sample.grown.world.book.senders (Sample.party 2))
      (fun start limit => getStreamsBySender (Sample.party 2) start limit Sample.grown.world)
      (fun s => s.sender = Sample.party 2) ∧
    Consistent Sample.grown.world.book.streams (Sample.grown.world.book.recipients (Sample.party 2))
      (fun start limit => getStreamsByRecipient (Sample.party 2) start limit Sample.grown.world)
      (fun s => s.recipient = Sample.party 2) := by
  have hopened : Run MayAnew Chain.step Sample.genesis [Sample.opening 0 0] _ :=
    .snoc .nil ⟨⟨by decide, trivial⟩, by decide⟩
  have hbatched : Run MayAnew Chain.step Sample.genesis (Sample.mixed.take 2) _ :=
    .snoc hopened ⟨⟨by decide, trivial⟩, by decide +kernel⟩
  have hgrown : Run MayAnew Chain.step Sample.genesis Sample.mixed Sample.grown :=
    .snoc hbatched ⟨⟨by decide, trivial⟩, by decide +kernel⟩
  exact indexes_consistent ⟨Sample.genesis, Sample.mixed, Sample.genesis_fresh, hgrown⟩ (Sample.party 2)

end SoroStream
